import SpecJit.Lowering.Coercion
import SpecJit.Proofs.AbstractState
import SpecJit.Proofs.Lowering.Boxing

/-!
# What checks prove, and what keeps it

A check that is not left through an exit has proved what it was made for: if the fact about the node
was true of its word before, the narrowed one is true of it afterwards (`typeCheck_tested`). For the
checks of a use kind this holds of every word that is not overlooked (`checkUse_checked`), and a
word that gets through the tests of the use kind is not made to leave (`checkUse_passes`).

Checks narrow facts and operations add some; the steps that only look at values, box and unbox them
or call the runtime leave the facts as they are.
-/

namespace SpecJit.Lowering

open Lir

variable {α β : Type} {σ : Type} {m : Machine σ} {c : Config σ} {env : Env} {s s' : State}
  {u : Unit} {id : NodeId} {w : Word} {mask : SpecType} {kind : ExitKind} {value : Reg}

/-! ## Single checks -/

/-- A block that is ended by leaving leaves at the exit that was built for it, with memory as it
was. -/
theorem terminate_quits {L : Set Word} (h : terminate kind env s = .ok (u, s'))
    (hm : s'.builder.Completes m.func) (hc : m.At s.builder c) (hv : s.facts.valid = true) :
    ∃ exit captured s₁, buildExit kind none env s = .ok ((exit, captured), s₁) ∧
      s'.exits = s₁.exits ∧ m.Quits L exit s'.builder c := by
  rw [terminate, get_bind] at h
  obtain ⟨t, b₁, h₁, h⟩ := emit_bind_ok h
  obtain ⟨rfl, ht⟩ := Emit.isTerminated_ok h₁
  have ht' : t = false := by
    have ho : s.builder.terminated[s.builder.current.index]? = some false := hc.isOpen
    rw [ho] at ht
    exact (Option.some.inj ht).symm
  subst ht'
  rw [if_neg (by simp [hv])] at h
  obtain ⟨⟨exit, captured⟩, s₁, h₁, h⟩ := bind_ok h
  have e₁ := (inferInstance : Smooth (buildExit kind none)).straight env s _ s₁ hc.wf h₁
  obtain ⟨_, b₂, h₂, h⟩ := emit_bind_ok h
  obtain ⟨_, s₃, h₃, h⟩ := bind_ok h
  cases h₃
  have e₂ := (inferInstance : (Emit.exit exit captured).Tidy).emits _ _ _ e₁.emits.after h₂
  have e₃ : b₂.Emits [] s'.builder := Tidy.after h (.refl e₂.after)
  have hexits : s'.exits = s₁.exits := by
    rw [invalidateDominated, read_bind, get_bind] at h
    obtain ⟨facts, -, h⟩ := check_bind_ok h
    cases h
    rfl
  have hm₂ := e₃.toExtends.completes hm
  obtain ⟨c₁, hgoes, hc₁, -, hmem⟩ := e₁.does (L := L) (e₂.toExtends.completes hm₂) hc
  obtain ⟨⟨blk, hend, ht⟩, hpassed⟩ := Machine.terminate_atEnd h₂ hm₂ hc₁
  have hquits : m.Quits L exit b₂ c :=
    ⟨c₁, hgoes.enclosed hc₁ e₂.toExtends hpassed, hpassed, ⟨blk, captured, hend, ht⟩, hmem⟩
  exact ⟨exit, captured, s₁, h₁, hexits, hquits.grow e₃.toExtends⟩

theorem terminate_leaves (h : terminate kind env s = .ok (u, s')) (hm : s'.builder.Completes m.func)
    (hc : m.At s.builder c) (hv : s.facts.valid = true) : m.Leaves s'.builder c := by
  obtain ⟨exit, captured, s₁, -, -, hquits⟩ := terminate_quits (L := .univ) h hm hc hv
  exact hquits.leavesAt.leaves

theorem factOf_ok {known : AbstractValue} (h : factOf id env s = .ok (known, s')) :
    s.facts.factOf env.graph id = .ok known ∧ s' = s := by
  rw [factOf, get_bind, read_bind] at h
  exact check_ok h

/-- The fact about a node is true of the word, and the lowering is not inside an arm. -/
structure Informed (env : Env) (memory : Memory) (s : State) (id : NodeId) (w : Word) : Prop where
  valid : s.facts.valid = true
  depth : s.armDepth = 0
  fact : ∃ known, s.facts.factOf env.graph id = .ok known ∧
    known.Describes (Value.kindOf env.layout memory w)

/-- The code leaves, or it goes on, the word is of the given kinds and the fact about it is true. -/
def Checked (m : Machine σ) (env : Env) (s : State) (c : Config σ) (s' : State) (id : NodeId)
    (w : Word) (mask : SpecType) : Prop :=
  m.Leaves s'.builder c ∨ (m.Runs s.builder c s'.builder (fun _ => True) ∧ Informed env c.memory s'
    id w ∧
    (Value.kindOf env.layout c.memory w).isSubsetOf mask = true)

/-- The same. The code leaves only if the word does not get through the tests, and if it goes on, no
more is narrowed than the fact about the node. -/
def Tested (m : Machine σ) (env : Env) (s : State) (c : Config σ) (s' : State) (id : NodeId)
    (w : Word) (mask : SpecType) (p : Bool) : Prop :=
  (p = false ∧ m.Leaves s'.builder c) ∨ (m.Runs s.builder c s'.builder (fun _ => True) ∧
    Informed env c.memory s' id w ∧
    (Value.kindOf env.layout c.memory w).isSubsetOf mask = true ∧ AbstractState.NarrowedAt env.graph
      id s.facts s'.facts)

theorem Tested.checked {p : Bool} (h : Tested m env s c s' id w mask p) :
    Checked m env s c s' id w mask :=
  h.imp And.right fun ⟨hruns, hi, hmask, _⟩ => ⟨hruns, hi, hmask⟩

/-- A word that gets through the tests gets through the code. -/
theorem Tested.passes (h : Tested m env s c s' id w mask true) :
    m.Runs s.builder c s'.builder (fun _ => True) ∧ Informed env c.memory s' id w ∧
      AbstractState.NarrowedAt env.graph id s.facts s'.facts := by
  obtain ⟨hruns, hi, -, hnarrowed⟩ := h.resolve_left fun hleave => Bool.noConfusion hleave.1
  exact ⟨hruns, hi, hnarrowed⟩

theorem Tested.mono {mask' : SpecType} {p : Bool} (h : Tested m env s c s' id w mask p)
    (hmask : (Value.kindOf env.layout c.memory w).isSubsetOf mask = true →
      (Value.kindOf env.layout c.memory w).isSubsetOf mask' = true) : Tested m env s c s' id w mask'
        p :=
  h.imp_right fun ⟨hruns, hi, hm, hnarrowed⟩ => ⟨hruns, hi, hmask hm, hnarrowed⟩

theorem Tested.congr {p p' : Bool} (h : Tested m env s c s' id w mask p) (hp : p = p') :
    Tested m env s c s' id w mask p' := hp ▸ h

/-- A check after another one. -/
theorem Tested.andThen {s₁ : State} {mask' : SpecType} {p q : Bool}
    (h : Tested m env s c s₁ id w mask p)
    (e : s.builder.Emits [] s₁.builder) (e' : s₁.builder.Emits [] s'.builder)
    (k : ∀ c', m.At s₁.builder c' → c.Follows s.builder c' s₁.builder → Informed env c'.memory s₁ id
      w →
      (Value.kindOf env.layout c'.memory w).isSubsetOf mask = true →
      Tested m env s₁ c' s' id w mask' q) :
    Tested m env s c s' id w mask' (p && q) := by
  rcases h with ⟨rfl, hleave⟩ | ⟨hruns, hi, hmask, hnarrowed⟩
  · exact .inl ⟨rfl, hleave.grow e'.toExtends⟩
  obtain ⟨c₁, hgoes, hc₁, hk, -⟩ := hruns
  have hmem := hk.memory
  have hruns : m.Runs s.builder c s₁.builder (· = c₁) := ⟨c₁, hgoes, hc₁, hk, rfl⟩
  rcases k c₁ hc₁ ⟨e.toExtends, hk⟩ (by rwa [hmem]) (by rwa [hmem]) with ⟨rfl, hleave⟩ | ⟨hruns',
    hi', hmask', hnarrowed'⟩
  · exact .inl ⟨Bool.and_false p, hruns.leaves e'.toExtends fun c' _ _ hc' => hc' ▸ hleave⟩
  · rw [hmem] at hi' hmask'
    exact .inr ⟨hruns.bind e.toExtends e'.toGrows fun c' _ _ hc' => hc' ▸ hruns', hi', hmask',
      hnarrowed.trans hnarrowed'⟩

/-- A check is left out if the facts say that it passes. -/
theorem typeCheck_leftOut {profile : Option Reg} {failing : Lower Reg} {known : AbstractValue}
    (h : typeCheck id mask kind profile failing env s = .ok (u, s'))
    (hknown : s.facts.factOf env.graph id = .ok known) (hsub : known.isType mask = true) :
    s'.builder = s.builder ∧ SameButCode s s' := by
  obtain ⟨known', s₁, h₁, h⟩ := bind_ok h
  obtain ⟨hknown', rfl⟩ := factOf_ok h₁
  rw [hknown] at hknown'
  cases hknown'
  rw [get_bind, if_pos hsub] at h
  cases h
  exact ⟨rfl, ⟨rfl, rfl, rfl, rfl, rfl, rfl, rfl, rfl⟩⟩

/-- A check leaves at once if the facts say that it fails. -/
theorem typeCheck_ruledOut {profile : Option Reg} {failing : Lower Reg} {known : AbstractValue}
    (h : typeCheck id mask kind profile failing env s = .ok (u, s'))
    (hm : s'.builder.Completes m.func) (hc : m.At s.builder c) (hvalid : s.facts.valid = true)
    (hdepth : s.armDepth = 0) (hknown : s.facts.factOf env.graph id = .ok known)
    (hsub : known.isType mask ≠ true) (hnot : known.isNotType mask = true) :
    m.Leaves s'.builder c := by
  obtain ⟨known', s₁, h₁, h⟩ := bind_ok h
  obtain ⟨hknown', rfl⟩ := factOf_ok h₁
  rw [hknown] at hknown'
  cases hknown'
  rw [get_bind, if_neg hsub, if_pos (by simp [hdepth, hnot])] at h
  exact terminate_leaves h hm hc hvalid

/-- A check that the value does not pass, or that the facts rule out, leaves. Otherwise it goes on:
it was left out, or it was passed and the fact about the node is narrowed. -/
theorem typeCheck_course {profile : Option Reg} {failing : Lower Reg} [Tidy failing] [Quiet failing]
    {t : Bool} {known : AbstractValue}
    (h : typeCheck id mask kind profile failing env s = .ok (u, s'))
    (hm : s'.builder.Completes m.func) (hc : m.At s.builder c) (hvalid : s.facts.valid = true)
    (hdepth : s.armDepth = 0) (hknown : s.facts.factOf env.graph id = .ok known)
    (hy : Yields m env s.builder c failing .i32 (ofBool t)) :
    (known.isNotType mask = true ∨ t = true) ∧ m.Leaves s'.builder c ∨
      (m.Runs s.builder c s'.builder (fun _ => True) ∧
      SameButCode { s with facts := s'.facts } s' ∧
      (known.isType mask = true ∧ s'.facts = s.facts ∨
        known.isType mask = false ∧ t = false ∧ s'.facts = s.facts.narrowTo id (known.filter mask)))
          := by
  by_cases hsub : known.isType mask = true
  · obtain ⟨hb, hsame⟩ := typeCheck_leftOut h hknown hsub
    refine .inr ⟨?_, { hsame with facts := rfl }, .inl ⟨hsub, hsame.facts⟩⟩
    rw [hb]
    exact .refl hc trivial
  by_cases hnot : known.isNotType mask = true
  · exact .inl ⟨.inl hnot, typeCheck_ruledOut h hm hc hvalid hdepth hknown hsub hnot⟩
  obtain ⟨known', s₁, h₁, h⟩ := bind_ok h
  obtain ⟨hknown', rfl⟩ := factOf_ok h₁
  rw [hknown] at hknown'
  cases hknown'
  rw [get_bind] at h
  have hdepth' : (s₁.armDepth != 0) = false := by simp [hdepth]
  rw [hdepth', if_neg hsub] at h
  rw [if_neg (by simp [hnot])] at h
  obtain ⟨failed, s₂, h₂, h⟩ := bind_ok h
  obtain ⟨_, s₃, h₃, h⟩ := bind_ok h
  rw [Bool.not_false, if_pos rfl, get_bind, read_bind] at h
  obtain ⟨facts, hfacts, h⟩ := check_bind_ok h
  cases h
  have e₂ : s₁.builder.Emits [] s₂.builder := Tidy.after h₂ (.refl hc.wf)
  have e₃ : s₂.builder.Emits [] s₃.builder := Tidy.after h₃ (.refl e₂.after)
  have hfailed := hy (.refl c _) hc h₂ (e₃.toExtends.completes hm)
  have hsame := (Quiet.same env s₁ failed s₂ h₂).trans (Quiet.same env s₂ _ s₃ h₃)
  cases t with
  | true =>
    exact .inl ⟨.inr rfl, hfailed.leaves e₃.toExtends fun _ hc' _ hf =>
      (speculate_runs h₃ hm hc' hf).2 (by decide)⟩
  | false =>
    have hruns := hfailed.bind e₂.toExtends e₃.toGrows fun _ hc' _ hf =>
      (speculate_runs h₃ hm hc' hf).1 (by decide)
    rw [hsame.facts] at hfacts
    refine .inr ⟨hruns, ?_, .inr ⟨by simpa using hsub, rfl, AbstractState.filter_ok hfacts hknown⟩⟩
    exact ⟨rfl, hsame.availability, hsame.values, hsame.block, hsame.armDepth, hsame.node,
      hsame.origin,
      hsame.upsilons⟩

/-- A check leaves or goes on. If it goes on, it was left out, or it was passed and the fact about
the node is narrowed. -/
theorem typeCheck_cases {profile : Option Reg} {failing : Lower Reg} [Tidy failing] [Quiet failing]
    {t : Bool} {known : AbstractValue}
    (h : typeCheck id mask kind profile failing env s = .ok (u, s'))
    (hm : s'.builder.Completes m.func) (hc : m.At s.builder c) (hvalid : s.facts.valid = true)
    (hdepth : s.armDepth = 0) (hknown : s.facts.factOf env.graph id = .ok known)
    (hy : Yields m env s.builder c failing .i32 (ofBool t)) :
    m.Leaves s'.builder c ∨ (m.Runs s.builder c s'.builder (fun _ => True) ∧
      SameButCode { s with facts := s'.facts } s' ∧
      (known.isType mask = true ∧ s'.facts = s.facts ∨
        known.isType mask = false ∧ t = false ∧ s'.facts = s.facts.narrowTo id (known.filter mask)))
          :=
  (typeCheck_course h hm hc hvalid hdepth hknown hy).imp_left And.right

/-- A check leaves because the test fails, or it goes on and the narrowed fact is true. -/
theorem typeCheck_tested {profile : Option Reg} {failing : Lower Reg} [Tidy failing] [Quiet failing]
    {t : Bool} (h : typeCheck id mask kind profile failing env s = .ok (u, s'))
    (hm : s'.builder.Completes m.func) (hc : m.At s.builder c) (hi : Informed env c.memory s id w)
    (hy : Yields m env s.builder c failing .i32 (ofBool t))
    (ht : t = false → (Value.kindOf env.layout c.memory w).isSubsetOf mask = true) :
    Tested m env s c s' id w mask (!t) := by
  obtain ⟨known, hknown, hdesc⟩ := hi.fact
  rcases typeCheck_course h hm hc hi.valid hi.depth hknown hy with ⟨hfails, hleave⟩ | ⟨hruns, hsame,
    hfacts⟩
  · refine .inl ⟨?_, hleave⟩
    cases t with
    | true => rfl
    | false =>
      have hover := SpecType.overlaps_of_subset hdesc.inhabited hdesc.allowed (ht rfl)
      simp [AbstractValue.isNotType, hover] at hfails
  refine .inr ?_
  have hdepth := hsame.armDepth.trans hi.depth
  rcases hfacts with ⟨hsub, hfacts⟩ | ⟨-, hpass, hfacts⟩
  · exact ⟨hruns,
      ⟨by rw [hfacts]; exact hi.valid, hdepth, known, by rw [hfacts]; exact hknown, hdesc⟩,
      SpecType.subset_trans hdesc.allowed hsub, hfacts ▸ .refl _⟩
  · have hmask := ht hpass
    refine ⟨hruns,
      ⟨?_, hdepth, _, by rw [hfacts]; exact AbstractState.factOf_narrowTo .., hdesc.filter hmask⟩,
      hmask,
      by rw [hfacts]; exact AbstractState.narrowedAt_filter hknown mask⟩
    simp only [hfacts, AbstractState.narrowTo, (hdesc.filter hmask).not_bottom]
    exact hi.valid

/-! ## The checks of use kinds -/

section Uses

open Value (kindOf passes overlooked)

/-- A check whose test is that of a use kind. -/
theorem typeCheckValue_tested {failing : Lower Reg} [Tidy failing] [Quiet failing] {k : UseKind}
    (h : typeCheckValue id value k.typeFilter failing env s = .ok (u, s'))
    (hm : s'.builder.Completes m.func) (hc : m.At s.builder c) (hi : Informed env c.memory s id w)
    (hy : Yields m env s.builder c failing .i32 (ofBool !passes env.layout c.memory w k))
    (hk : k.isProven = false) (ho : overlooked env.layout c.memory w k = false) :
    Tested m env s c s' id w k.typeFilter (passes env.layout c.memory w k) :=
  (typeCheck_tested h hm hc hi hy fun ht => Value.subset_of_passes hk (by simpa using ht) ho).congr
    (Bool.not_not _)

theorem checkCell_tested (h : checkCell id value env s = .ok (u, s'))
    (hm : s'.builder.Completes m.func) (hc : m.At s.builder c) (hv : c.Has s.builder value .i64 w)
    (hi : Informed env c.memory s id w) (hne : w ≠ Value.empty) :
    Tested m env s c s' id w .cell (Value.isCell w) := by
  refine typeCheckValue_tested (k := .cell) h hm hc hi ?_ rfl
    (by simpa [overlooked, UseKind.isCell] using hne)
  exact .bind (.ofEmit (isCell_yields hv)) fun _ ht => .ofEmit (negated_yields ht)

/-- More checks after the check for a cell. -/
theorem checkCell_andThen {rest : Lower Unit} [Tidy rest] {p : Bool}
    (h : (checkCell id value >>= fun _ => rest) env s = .ok (u, s'))
    (hm : s'.builder.Completes m.func) (hc : m.At s.builder c) (hv : c.Has s.builder value .i64 w)
    (hi : Informed env c.memory s id w) (hne : w ≠ Value.empty)
    (k : ∀ {s₁ : State} {c' : Config σ}, m.At s₁.builder c' → c.Follows s.builder c' s₁.builder →
      Informed env c'.memory s₁ id w → Value.isCell w = true → rest env s₁ = .ok (u, s') →
      Tested m env s₁ c' s' id w mask p) : Tested m env s c s' id w mask (Value.isCell w && p) := by
  obtain ⟨_, s₁, h₁, h₂⟩ := bind_ok h
  have e₁ : s.builder.Emits [] s₁.builder := Tidy.after h₁ (.refl hc.wf)
  have e₂ : s₁.builder.Emits [] s'.builder := Tidy.after h₂ (.refl e₁.after)
  refine (checkCell_tested h₁ (e₂.toExtends.completes hm) hc hv hi hne).andThen e₁ e₂
    fun c' hc' hf hi' hcell => ?_
  exact k hc' hf hi' (Value.isCell_of_subset hcell) h₂

/-- A check of the tag after the check for a cell. -/
theorem checkCellType_tested {cellType : CellType}
    (h : checkCellType id value mask cellType env s = .ok (u, s'))
    (hm : s'.builder.Completes m.func) (hc : m.At s.builder c) (hv : c.Has s.builder value .i64 w)
    (hi : Informed env c.memory s id w) (hne : w ≠ Value.empty)
    (hmask : Value.isCell w = true → Cell.tag env.layout c.memory w = cellType.tag →
      (kindOf env.layout c.memory w).isSubsetOf mask = true) :
    Tested m env s c s' id w mask (Value.isCell w && Cell.tag env.layout c.memory w ==
      cellType.tag) := by
  refine checkCell_andThen h hm hc hv hi hne fun {s₁ c'} hc' hf hi' hcell h₂ => ?_
  rw [← hf.memory]
  refine (typeCheck_tested (t := Cell.tag env.layout c'.memory w != cellType.tag) h₂ hm hc' hi' ?_
    fun ht => ?_).congr
    (Bool.not_not _)
  · exact (cellTag_yields (hv.later hf)).bind fun _ htag =>
      .ofEmit (tagNe_yields (Cell.tag_lt ..) htag)
  · rw [hf.memory] at ht ⊢
    exact hmask hcell (by simpa using ht)

/-- A use that relies on earlier code, or reads a double, does not check boxed values. -/
theorem checkUse_unchecked {e : Edge} (hk : Value.checksBoxed e.useKind = false) :
    checkUse e value = pure () := by
  obtain ⟨id, k, kill⟩ := e
  cases k <;> first | rfl | exact Bool.noConfusion hk

/-- The checks of a use kind leave because the word does not get through the tests, or prove what
they stand for, unless the word is overlooked. -/
theorem checkUse_tested {e : Edge} (h : checkUse e value env s = .ok (u, s'))
    (hm : s'.builder.Completes m.func) (hc : m.At s.builder c) (hv : c.Has s.builder value .i64 w)
    (hi : Informed env c.memory s e.node w) (hk : e.useKind.isProven = false)
    (ho : overlooked env.layout c.memory w e.useKind = false) :
    Tested m env s c s' e.node w e.useKind.typeFilter (passes env.layout c.memory w e.useKind) := by
  obtain ⟨id, k⟩ := e
  -- the empty word is overlooked by the uses of cells
  have hnonempty (hcell : k.isCell = true) : w ≠ Value.empty := by
    rintro rfl
    cases k <;> first
      | exact absurd hcell (by decide)
      | exact absurd hk (by decide)
      | simp [overlooked, UseKind.isCell] at ho
  -- a use of cells of one type
  have htyped {cellType : CellType}
      (h : checkCellType id value k.typeFilter cellType env s = .ok (u, s'))
      (hcell : k.isCell = true)
      (hp : passes env.layout c.memory w k =
        (Value.isCell w && passes.hasTag env.layout c.memory w cellType)) :
      Tested m env s c s' id w k.typeFilter (passes env.layout c.memory w k) := by
    refine (checkCellType_tested h hm hc hv hi (hnonempty hcell) fun hcell htag => ?_).congr hp.symm
    exact Value.subset_of_passes hk
      (by rw [hp, hcell, passes.hasTag, htag, beq_self_eq_true, Bool.and_self]) ho
  cases k with
  | untyped | knownInt32 | knownBoolean | knownCell | knownString | int52Rep | doubleRep => cases hk
  | doubleRepReal | doubleRepMachineInt =>
    cases h
    exact .inr ⟨.refl hc trivial, hi, by simpa [overlooked, UseKind.typeFilter] using ho, .refl _⟩
  | int32 =>
    exact typeCheckValue_tested (k := .int32) h hm hc hi (.ofEmit (notInt32_yields hv)) hk ho
  | number =>
    exact typeCheckValue_tested (k := .number) h hm hc hi
      (.bind (.ofEmit (isNumber_yields hv)) fun _ ht => .ofEmit (negated_yields ht)) hk ho
  | machineInt =>
    refine Tested.mono (typeCheckValue_tested (k := .number) h hm hc hi
      (.bind (.ofEmit (isNumber_yields hv)) fun _ ht => .ofEmit (negated_yields ht)) rfl rfl)
        fun hnum => ?_
    exact Value.subset_of_passes hk (Value.isNumber_of_subset hnum) ho
  | realNumber =>
    exact typeCheckValue_tested (k := .realNumber) h hm hc hi (isNotRealNumber_yields hv) hk ho
  | boolean =>
    exact typeCheckValue_tested (k := .boolean) h hm hc hi
      (.bind (.ofEmit (isBoolean_yields hv)) fun _ ht => .ofEmit (negated_yields ht)) hk ho
  | cell => exact checkCell_tested h hm hc hv hi (hnonempty rfl)
  | notStringVar =>
    exact typeCheckValue_tested (k := .notStringVar) h hm hc hi
      ((isStringVar_yields hv).congr (by simp [passes, passes.hasTag])) hk ho
  | objectOrOther =>
    exact typeCheckValue_tested (k := .objectOrOther) h hm hc hi (isNotObjectOrOther_yields hv) hk
      ho
  | notCell =>
    exact typeCheckValue_tested (k := .notCell) h hm hc hi
      (.ofEmit ((isCell_yields hv).congr (by simp [passes]))) hk ho
  | other =>
    exact typeCheckValue_tested (k := .other) h hm hc hi
      (.bind (.ofEmit (isOther_yields hv)) fun _ ht => .ofEmit (negated_yields ht)) hk ho
  | misc =>
    exact typeCheckValue_tested (k := .misc) h hm hc hi
      (.bind (.ofEmit (isMisc_yields hv)) fun _ ht => .ofEmit (negated_yields ht)) hk ho
  | function | finalObject | string | stringObject => exact htyped h rfl rfl
  | object =>
    have hne : w ≠ Value.empty := by
      rintro rfl
      simp [overlooked] at ho
    refine (checkCell_andThen (p := Cell.hasObjectTag env.layout c.memory w) h hm hc hv hi hne
      fun {s₁ c'} hc' hf hi' hcell h₂ => ?_).congr rfl
    refine (typeCheckValue_tested (k := .object) h₂ hm hc' hi' ?_ rfl (by rwa [hf.memory])).congr
      (by simp [passes, hcell, hf.memory])
    refine (cellTag_yields (hv.later hf)).bind fun hf' htag => ?_
    rw [← hf'.memory] at htag
    refine (isNotObjectTag_yields htag).congr ?_
    simp [passes, hcell, hf'.memory]
  | stringOrStringObject =>
    refine (checkCell_andThen (p := passes.hasTag env.layout c.memory w .string ||
      passes.hasTag env.layout c.memory w .stringObject)
      h hm hc hv hi (hnonempty rfl) fun {s₁ c'} hc' hf hi' hcell h₂ => ?_).congr rfl
    refine (typeCheckValue_tested (k := .stringOrStringObject) h₂ hm hc' hi' ?_ rfl
      (by rwa [hf.memory])).congr
      (by simp [passes, hcell, hf.memory])
    refine (cellTag_yields (hv.later hf)).bind fun _ htag => ?_
    refine .bind (.ofEmit (tagNe_yields (Cell.tag_lt ..) htag)) fun hf₁ hstring => ?_
    refine .bind (.ofEmit (tagNe_yields (Cell.tag_lt ..) (htag.later hf₁))) fun hf₂ hobject => ?_
    refine .ofEmit ((Emit.binary_yields (hstring.later hf₂) hobject).congr ?_)
    rw [BinaryOp.and_ofBool]
    simp [passes, passes.hasTag, hcell, bne]
  | stringIdent =>
    have hne := hnonempty rfl
    obtain ⟨_, s₁, h₁, h₂⟩ := bind_ok h
    have e₁ : s.builder.Emits [] s₁.builder := Tidy.after h₁ (.refl hc.wf)
    have e₂ : s₁.builder.Emits [] s'.builder := Tidy.after h₂ (.refl e₁.after)
    have hstring : Tested m env s c s₁ id w .string _ :=
      checkCellType_tested h₁ (e₂.toExtends.completes hm) hc hv hi hne
      fun hcell htag => Value.subset_of_passes (k :=
        .string) rfl (by simp [passes, passes.hasTag, hcell, htag])
        (by simpa [overlooked, UseKind.isCell] using hne)
    refine (hstring.andThen (q := Cell.isIdentString env.layout c.memory w) e₁ e₂
      fun c' hc' hf hi' hsub => ?_).congr rfl
    have hpasses := (Value.settled env.layout c'.memory w (k := .string) rfl).taken hne (by simp)
      hsub
    simp only [passes, Bool.and_eq_true] at hpasses
    refine (typeCheckValue_tested (k := .stringIdent) h₂ hm hc' hi'
      ((isNotIdentString_yields (hv.later hf)).congr ?_) rfl
      (by rwa [hf.memory])).congr ?_
    · simp [passes, hpasses.1, hpasses.2]
    · rw [hf.memory] at hpasses ⊢
      simp [passes, hpasses.1, hpasses.2]

/-- The checks of a use kind leave, or prove what they stand for, unless the word is overlooked. -/
theorem checkUse_checked {e : Edge} (h : checkUse e value env s = .ok (u, s'))
    (hm : s'.builder.Completes m.func) (hc : m.At s.builder c) (hv : c.Has s.builder value .i64 w)
    (hi : Informed env c.memory s e.node w) (hk : e.useKind.isProven = false)
    (ho : overlooked env.layout c.memory w e.useKind = false) :
    Checked m env s c s' e.node w e.useKind.typeFilter :=
      (checkUse_tested h hm hc hv hi hk ho).checked

/-- A word that passes the tests of a use gets through its checks. -/
theorem checkUse_passes {e : Edge} (h : checkUse e value env s = .ok (u, s'))
    (hm : s'.builder.Completes m.func) (hc : m.At s.builder c) (hv : c.Has s.builder value .i64 w)
    (hi : Informed env c.memory s e.node w) (hpass : passes env.layout c.memory w e.useKind = true)
    (ho : overlooked env.layout c.memory w e.useKind = false) :
    m.Runs s.builder c s'.builder (fun _ => True) ∧ Informed env c.memory s' e.node w ∧
      AbstractState.NarrowedAt env.graph e.node s.facts s'.facts := by
  cases hk : e.useKind.isProven with
  | true =>
    rw [checkUse_unchecked (by simp [Value.checksBoxed, hk])] at h
    cases h
    exact ⟨.refl hc trivial, hi, .refl _⟩
  | false => exact ((checkUse_tested h hm hc hv hi hk ho).congr hpass).passes

end Uses

/-! ## What steps do to the facts -/

/-- What a law says of the facts of states, and that arms are closed. -/
def onFacts (F : AbstractState.Law) : Law where
  rel env s s' := F.rel env.graph s.facts s'.facts ∧ s'.armDepth = s.armDepth
  refl env s := ⟨F.refl env.graph s.facts, rfl⟩
  trans h₁ h₂ := ⟨F.trans h₁.1 h₂.1, h₂.2.trans h₁.2⟩

section OnFacts

variable {F : AbstractState.Law}

theorem onFacts_same {env : Env} {s s' : State} (hfacts : s'.facts = s.facts)
    (hdepth : s'.armDepth = s.armDepth) : (onFacts F).rel env s s' :=
  ⟨by rw [hfacts]; exact F.refl env.graph s.facts, hdepth⟩

instance : (onFacts F).Uncoded where
  counts _ _ _ := onFacts_same rfl rfl
  arms h := ⟨h.1, by simp [h.2]⟩
  code _ _ _ := onFacts_same rfl rfl

instance : (onFacts F).Rebuilds where
  rebuilding := inferInstance
  captures kind profile := (inferInstance : Quiet (buildExit kind profile)).mono fun _ _ _ h =>
    onFacts_same h.facts h.armDepth

instance : (onFacts F).Records where
  records _ _ _ := obeys_modify fun _ _ => by dsimp only; split <;> exact onFacts_same rfl rfl

end OnFacts

/-- No fact changes. -/
abbrev keepingFacts : Law := onFacts {
  rel := fun _ f f' => f' = f
  refl := fun _ _ => rfl
  trans := fun h₁ h₂ => h₂.trans h₁ }

/-- The step changes no fact. -/
abbrev KeepsFacts (x : Lower α) : Prop := Obeys keepingFacts x

theorem KeepsFacts.kept {x : Lower α} [hx : KeepsFacts x] (env : Env) (s : State) (a : α)
    (s' : State) (h : x env s = .ok (a, s')) : s'.facts = s.facts ∧ s'.armDepth = s.armDepth :=
  hx.of_ok h

end SpecJit.Lowering
