import SpecJit.Proofs.Lowering.Exits.Record
import SpecJit.Proofs.Lowering.InStep.Basic

/-!
# Exits of two lowerings in step

Lowerings that are in step take what an exit restores from the same sources (`Twin.sourceOf`), so
the exits that they record are twins (`Records.twins`): the objects that go together are those that
stand for the same node. Each exit is recorded and placed once, on both sides (`Twin.leave`).
-/

namespace SpecJit.Lowering

open Lir

variable {E : Setting} {Γ : List Link} {env : Env} {π π' : Pairing} {s s' s₁ s₁' : State}
  {K K' : List (Reg × Int64)} {c c' : Capture} {e e' : OsrExit} {kind : ExitKind}
  {profile profile' : Option Reg}

/-! ## Sources -/

/-- Operands that go together. -/
inductive Term.Twin (π : Pairing) : Term → Term → Prop
  | register {r r' : Reg} : π.regs r r' → Twin π (.register r) (.register r')
  | constant (n : Int32) : Twin π (.constant n) (.constant n)

/-- Sources that go together. -/
inductive ExitSource.Twin (π : Pairing) : ExitSource → ExitSource → Prop
  | nowhere : Twin π .nowhere .nowhere
  | slot (v : Operand) (format : ValueFormat) : Twin π (.slot v format) (.slot v format)
  | object (id : NodeId) : Twin π (.object id) (.object id)
  | constant (w : Word) : Twin π (.constant w) (.constant w)
  | register {r r' : Reg} (format : ValueFormat) : π.regs r r' → Twin π (.register r format)
    (.register r' format)
  | sum (op : RecoveryOp) {t t' u u' : Term} : t.Twin π t' → u.Twin π u' →
    Twin π (.sum op t u) (.sum op t' u')

theorem Twin.termOf (h : Twin E π s s') (e : Edge) :
    Option.Rel (Term.Twin π) (termOf E.leftEnv s e) (termOf E.rightEnv s' e) := by
  have hheld := h.heldIn e.node .int32
  unfold Lowering.termOf
  generalize Lowering.heldIn E.leftEnv s e.node .int32 = o, Lowering.heldIn E.rightEnv s' e.node
    .int32 = o' at hheld
  cases hheld with
  | some hr => exact .some (.register hr)
  | none =>
    dsimp only
    cases (E.env.graph.node? e.node).bind fun node => int32Constant? node.op with
    | none => exact .none
    | some n => exact .some (.constant n)

theorem Twin.capturedIn (h : Twin E π s s') (id : NodeId) :
    Option.Rel (fun p p' => π.regs p.1 p'.1 ∧ p.2 = p'.2)
    (capturedIn E.leftEnv s id) (capturedIn E.rightEnv s' id) := by
  unfold Lowering.capturedIn
  induction capturedForms with
  | nil => exact .none
  | cons f forms ih =>
    have hheld := h.heldIn id f.1
    rw [List.findSome?_cons, List.findSome?_cons]
    generalize Lowering.heldIn E.leftEnv s id f.1 = o, Lowering.heldIn E.rightEnv s' id f.1 = o'
      at hheld
    cases hheld with
    | some hr => exact .some ⟨hr, rfl⟩
    | none => exact ih

theorem Twin.sumOf (h : Twin E π s s') (id : NodeId) (node : Node) :
    (sumOf E.leftEnv s id node).Twin π (sumOf E.rightEnv s' id node) := by
  have hterm (i : Nat) : Option.Rel (Term.Twin π)
    (node.children[i]?.bind (Lowering.termOf E.leftEnv s))
      (node.children[i]?.bind (Lowering.termOf E.rightEnv s')) := by
    cases node.children[i]? with
    | none => exact .none
    | some e => exact h.termOf e
  have h₀ := hterm 0
  have h₁ := hterm 1
  unfold Lowering.sumOf
  split
  · generalize node.children[0]?.bind (Lowering.termOf E.leftEnv s) = o,
      node.children[0]?.bind (Lowering.termOf E.rightEnv s') = o'
      at h₀
    generalize node.children[1]?.bind (Lowering.termOf E.leftEnv s) = p,
      node.children[1]?.bind (Lowering.termOf E.rightEnv s') = p'
      at h₁
    cases h₀ with
    | none => exact .nowhere
    | some hl =>
      cases h₁ with
      | none => exact .nowhere
      | some hr => exact .sum _ hl hr
  · exact .nowhere

theorem Twin.nodeSource (h : Twin E π s s') (id : NodeId) (node : Node) :
    (nodeSource E.leftEnv s id node).Twin π (nodeSource E.rightEnv s' id node) := by
  have hheld := h.capturedIn id
  unfold Lowering.nodeSource
  split
  · exact .object id
  · split
    · exact .constant _
    · generalize Lowering.capturedIn E.leftEnv s id = o, Lowering.capturedIn E.rightEnv s' id = o'
        at hheld
      cases hheld with
      | none => exact h.sumOf id node
      | @some p p' hp =>
        obtain ⟨r, format⟩ := p
        obtain ⟨r', format'⟩ := p'
        obtain rfl : format = format' := hp.2
        exact .register _ hp.1

/-- A value that is available somewhere is taken from the same source. -/
theorem Twin.sourceOf (h : Twin E π s s') (a : Availability) :
    (sourceOf E.leftEnv s a).Twin π (sourceOf E.rightEnv s' a) := by
  unfold Lowering.sourceOf
  split
  · exact .slot _ _
  · split
    · exact .nowhere
    · dsimp only [Setting.leftEnv, Setting.rightEnv, Env.inMode]
      split
      · exact .nowhere
      · exact h.nodeSource _ _

/-! ## Records -/

/-- The objects of two exits that stand for the same node. -/
def Capture.SameNode (c c' : Capture) (m m' : MaterializationId) : Prop :=
  ∃ id, (id, m) ∈ c.built ∧ (id, m') ∈ c'.built

theorem Term.In.same {t t' : Term} {r r' : Reg} (h : t.In K r) (h' : t'.In K' r') (ht : t.Twin π t')
    (hle : π.Le π') (hK : ∀ q ∈ K, π'.left q.1 q.2) (hK' : ∀ q ∈ K', π'.right q.1 q.2) :
    π'.Same r r' := by
  cases ht with
  | register hr =>
    cases h
    cases h'
    exact .inl (hle.regs hr)
  | constant n =>
    cases h with
    | constant h =>
      cases h' with
      | constant h' => exact .inr ⟨_, hK _ h, hK' _ h'⟩

theorem captured_of_regs {regs regs' : Array Reg} {i i' : Nat} {r r' : Reg} (hi : regs[i]? = some r)
    (hi' : regs'[i']? = some r') (h : π.Same r r') : π.Captured regs.toList regs'.toList i i' :=
  ⟨r, r', Array.getElem?_toList.trans hi, Array.getElem?_toList.trans hi', h⟩

/-- Values from sources that go together are restored in the same way. -/
theorem Realizes.twin {src src' : ExitSource} {x x' : ExitValue} (h : Realizes K c src x)
    (h' : Realizes K' c' src' x') (hsrc : src.Twin π src') (hle : π.Le π')
    (hK : ∀ q ∈ K, π'.left q.1 q.2) (hK' : ∀ q ∈ K', π'.right q.1 q.2) :
    x.Twin (π'.Captured c.regs.toList c'.regs.toList) (c.SameNode c') x' := by
  cases hsrc with
  | nowhere =>
    cases h
    cases h'
    exact .dead
  | slot v format =>
    cases h
    cases h'
    exact .inStack v format
  | object id =>
    cases h with
    | object h =>
      cases h' with
      | object h' => exact .materialize ⟨id, h, h'⟩
  | constant w =>
    cases h
    cases h'
    exact .constant w
  | register format hr =>
    cases h with
    | register hi =>
      cases h' with
      | register hi' => exact .argument format (captured_of_regs hi hi' (.inl (hle.regs hr)))
  | sum op hl hr =>
    cases h with
    | sum h₁ h₂ hi hj =>
      cases h' with
      | sum h₁' h₂' hi' hj' =>
        exact .recovery op _ (captured_of_regs hi hi' (h₁.same h₁' hl hle hK hK'))
          (captured_of_regs hj hj' (h₂.same h₂' hr hle hK hK'))

/-- What two lists have in common with a third. -/
theorem forall₂_through {α β γ : Type} {R : α → β → Prop} {S : α → γ → Prop} {T : β → γ → Prop}
    {l : List α} {m : List β} {n : List γ} (h : List.Forall₂ R l m) (h' : List.Forall₂ S l n)
    (hT : ∀ a b c, R a b → S a c → T b c) : List.Forall₂ T m n := by
  induction h generalizing n with
  | nil =>
    cases h'
    exact .nil
  | cons hab _ ih =>
    cases h' with
    | cons hac hrest => exact .cons (hT _ _ _ hab hac) (ih hrest)

/-- A pair of a list without repeated keys is found by its key, and by its value if there is no
repeated value. -/
theorem pair_unique {α β : Type} {l : List (α × β)} {a a' : α} {b b' : β}
    (hkeys : (l.map Prod.fst).Nodup) (hvalues : (l.map Prod.snd).Nodup) (h : (a, b) ∈ l)
    (h' : (a', b') ∈ l) : a = a' ↔ b = b' := by
  constructor
  · rintro rfl
    exact congrArg Prod.snd (List.inj_on_of_nodup_map hkeys h h' rfl)
  · rintro rfl
    exact congrArg Prod.fst (List.inj_on_of_nodup_map hvalues h h' rfl)

/-- The exits that two lowerings in step record are twins. -/
theorem Records.twins (h : Records E.leftEnv kind profile s K c e s₁)
    (h' : Records E.rightEnv kind profile' s' K' c' e' s₁') (hs : Twin E π s s') (hle : π.Le π')
    (hK : ∀ q ∈ K, π'.left q.1 q.2) (hK' : ∀ q ∈ K', π'.right q.1 q.2)
    (hprofile : Option.Rel π.regs profile profile') :
    s₁.exits.Twins s₁'.exits (π'.Captured c.regs.toList c'.regs.toList)
      (fun v => E.env.graph.isLiveInBytecode v e.origin = true) e e' := by
  obtain ⟨xs, hcollects, -⟩ := h.collects
  obtain ⟨xs', hcollects', -⟩ := h'.collects
  refine ⟨h.kind.trans h'.kind.symm, ?_, ?_, c.SameNode c', ⟨?_, ?_⟩, ?_⟩
  · rw [h.origin, h'.origin, hs.data.origin]
  · have hp := h.profiled
    have hp' := h'.profiled
    cases hprofile with
    | none =>
      cases he : e.profileValue with
      | some i => rw [he] at hp; exact hp.elim
      | none =>
        cases he' : e'.profileValue with
        | some i => rw [he'] at hp'; exact hp'.elim
        | none => exact .nil
    | some hr =>
      cases he : e.profileValue with
      | none => rw [he] at hp; exact hp.elim
      | some i =>
        cases he' : e'.profileValue with
        | none => rw [he'] at hp'; exact hp'.elim
        | some i' =>
          rw [he] at hp
          rw [he'] at hp'
          exact .cons (captured_of_regs hp hp' (.inl (hle.regs hr))) .nil
  · rintro m m' d d' ⟨id, hm, hm'⟩ ⟨id', hd, hd'⟩
    have hk := hcollects.keyed
    have hk' := hcollects'.keyed
    exact (pair_unique hk.nodup hk.distinct hm hd).symm.trans (pair_unique hk'.nodup hk'.distinct
      hm' hd')
  · rintro m m' ⟨id, hm, hm'⟩
    obtain ⟨node, kind₁, record, hnode, hop, hrecord, hkind, horigin, hfields⟩ :=
      ((hcollects.described _ hm).resolve_left (by simp)).2
    obtain ⟨node', kind₁', record', hnode', hop', hrecord', hkind', horigin', hfields'⟩ :=
      ((hcollects'.described _ hm').resolve_left (by simp)).2
    obtain rfl : node = node' := Option.some.inj (hnode.symm.trans hnode')
    obtain rfl : kind₁ = kind₁' := Op.phantomAllocation.inj (hop.symm.trans hop')
    refine ⟨record, record', hrecord, hrecord', hkind.trans hkind'.symm,
      horigin.trans horigin'.symm, ?_⟩
    rw [← hs.data.availability] at hfields'
    refine forall₂_through hfields hfields' fun f p p' hp hp' => ⟨hp.1.trans hp'.1.symm, ?_⟩
    exact hp.2.twin hp'.2 (hs.sourceOf f.2) hle hK hK'
  · intro v x x' hlive hx hx'
    have hsrc := h.values v x hx
    have hsrc' := h'.values v x' hx'
    rw [h.origin] at hlive
    rw [variableSource, if_neg fun hdead => by simp [hdead.2] at hlive] at hsrc
    rw [variableSource,
      if_neg fun hdead => by rw [← hs.data.origin] at hdead; simp [hdead.2] at hlive] at hsrc'
    rw [← hs.data.availability] at hsrc'
    exact hsrc.twin hsrc' (hs.sourceOf _) hle hK hK'

/-! ## Tables -/

/-- The builder has one exit more than before. -/
def AddsExit (b : Builder) (id : ExitId) (regs : List Reg) (b₁ : Builder) : Prop :=
  ∃ place, ∀ i id' regs', b₁.ExitsAt i id' regs' ↔ b.ExitsAt i id' regs' ∨ i = place ∧ id' = id ∧
    regs' = regs

theorem AddsExit.after {b b₁ b₂ : Builder} {id : ExitId} {regs : List Reg}
    (h : AddsExit b₁ id regs b₂) (hb : b.SameExits b₁) :
    AddsExit b id regs b₂ := by
  obtain ⟨place, h⟩ := h
  exact ⟨place, fun i id' regs' => (h i id' regs').trans (or_congr_left (hb i id' regs'))⟩

/-- The records of a table with one exit more. -/
theorem exit?_pushExit {t : ExitTable} {id : ExitId} {e₀ : OsrExit} :
    (t.pushExit e).2.exit? id = some e₀ ↔
    t.exit? id = some e₀ ∨ id = ⟨t.exits.size⟩ ∧ e₀ = e := by
  obtain ⟨i⟩ := id
  simp only [ExitTable.exit?, ExitTable.pushExit, Array.getElem?_push, ExitId.mk.injEq]
  split
  · subst_vars
    simp [eq_comm]
  · simp [*]

/-- An exit of the table has its place before the end. -/
theorem exit?_ne {t : ExitTable} {e₀ : OsrExit} : t.exit? ⟨t.exits.size⟩ ≠ some e₀ := by
  simp [ExitTable.exit?]

theorem Records.exit? (h : Records env kind profile s K c e s₁) (id : ExitId) :
    s₁.exits.exit? id = s.exits.exit? id := by
  obtain ⟨xs, hcollects, -⟩ := h.collects
  rw [ExitTable.exit?, ExitTable.exit?, hcollects.exits]

theorem Records.exits_size (h : Records env kind profile s K c e s₁) :
    s₁.exits.exits.size = s.exits.exits.size := by
  obtain ⟨xs, hcollects, -⟩ := h.collects
  rw [hcollects.exits]

/-- Objects that were described before the exit are kept. -/
theorem Records.kept (h : Records env kind profile s K c e s₁) (m : MaterializationId)
    (hm : s.exits.Has m) :
    (s₁.exits.pushExit e).2.materialization? m = s.exits.materialization? m := by
  obtain ⟨xs, hcollects, -⟩ := h.collects
  exact hcollects.kept m hm

/-- The next exit has no place yet. -/
theorem Matched.unplaced {b : Builder} {t : ExitTable} {i : Nat} {regs : List Reg}
    (h : Matched env b t) :
    ¬ b.ExitsAt i ⟨t.exits.size⟩ regs := fun hi => by
  obtain ⟨e₀, he₀, -⟩ := h.recorded hi
  exact exit?_ne he₀

/-- An exit that is recorded and placed. -/
theorem Matched.addExit {b : Builder} (h : Matched env s.builder s.exits)
    (hr : Records env kind profile s K c e s₁)
    (hshape : s.availability.operands.Shaped env.graph.numArguments env.graph.numLocals)
    (hb : AddsExit s.builder ⟨s.exits.exits.size⟩ c.regs.toList b) :
    Matched env b (s₁.exits.pushExit e).2 := by
  obtain ⟨place, hb⟩ := hb
  have hexit {id : ExitId} {e₀ : OsrExit} : (s₁.exits.pushExit e).2.exit? id = some e₀ ↔
      s.exits.exit? id = some e₀ ∨ id = ⟨s.exits.exits.size⟩ ∧ e₀ = e := by
    rw [exit?_pushExit, hr.exit?, hr.exits_size]
  refine ⟨fun hi => ?_, fun he => ?_, fun hi hj => ?_, fun hmode id e₀ v x he hdead hx => ?_⟩
  · rcases (hb _ _ _).1 hi with hi | ⟨-, rfl, rfl⟩
    · obtain ⟨e₀, he₀, hmeasures, hshaped⟩ := h.recorded hi
      exact ⟨e₀, hexit.2 (.inl he₀), hmeasures.mono hr.kept, hshaped⟩
    · refine ⟨e, hexit.2 (.inr ⟨rfl, rfl⟩), ?_, hr.shape⟩
      rw [Array.length_toList]
      exact (hr.measures hshape).mono fun _ _ => rfl
  · rcases hexit.1 he with he | ⟨rfl, -⟩
    · obtain ⟨i, regs, hi⟩ := h.placed he
      exact ⟨i, regs, (hb _ _ _).2 (.inl hi)⟩
    · exact ⟨place, _, (hb _ _ _).2 (.inr ⟨rfl, rfl, rfl⟩)⟩
  · rcases (hb _ _ _).1 hi with hi | ⟨rfl, rfl, -⟩
    · rcases (hb _ _ _).1 hj with hj | ⟨-, rfl, -⟩
      · exact h.once hi hj
      · exact absurd hi h.unplaced
    · rcases (hb _ _ _).1 hj with hj | ⟨rfl, -, -⟩
      · exact absurd hj h.unplaced
      · rfl
  · rcases hexit.1 he with he | ⟨-, rfl⟩
    · exact h.pruned hmode he hdead hx
    · rw [hr.origin] at hdead
      have hsrc := hr.values v x hx
      rw [variableSource, if_pos ⟨hmode, hdead⟩] at hsrc
      exact hsrc.eq_dead_iff.2 rfl

/-- Both lowerings record and place an exit. -/
theorem Twin.leave {b b' : Builder} (hs : Twin E π s s')
    (hr : Records E.leftEnv kind profile s K c e s₁)
    (hr' : Records E.rightEnv kind profile' s' K' c' e' s₁')
    (hprofile : Option.Rel π.regs profile profile') (hle : π.Le π') (hK : ∀ q ∈ K, π'.left q.1 q.2)
    (hK' : ∀ q ∈ K', π'.right q.1 q.2) (hb : Builder.Pairs π' b b')
    (hadds : AddsExit s.builder ⟨s.exits.exits.size⟩ c.regs.toList b)
    (hadds' : AddsExit s'.builder ⟨s'.exits.exits.size⟩ c'.regs.toList b') :
    Twin E π' { s₁ with builder := b, exits := (s₁.exits.pushExit e).2,
                        stats.exits := s₁.stats.exits + 1 }
      { s₁' with builder := b', exits := (s₁'.exits.pushExit e').2,
                 stats.exits := s₁'.stats.exits + 1 } := by
  obtain ⟨xs, hc, -⟩ := hr.collects
  obtain ⟨xs', hc', -⟩ := hr'.collects
  have hd := hs.data
  refine ⟨⟨?_, ?_, ?_, ?_, ?_, ?_, ?_, ?_⟩, hb, ?_, ?_, hle.regs hs.context, hle.regs hs.frame,
    fun hid => hle.regs (hs.phis hid),
    fun hi => hle.blocks (hs.bodies hi), ?_, ?_, ?_, hs.left.addExit hr hs.shaped hadds,
    hs.right.addExit hr' (hs.data.availability ▸ hs.shaped) hadds', ?_⟩
  · exact hc.same.facts.trans (hd.facts.trans hc'.same.facts.symm)
  · exact hc.same.availability.trans (hd.availability.trans hc'.same.availability.symm)
  · exact hc.caches.trans (hd.caches.trans hc'.caches.symm)
  · simp only [hc.stats, hc'.stats, hd.stats]
  · exact hc.same.block.trans (hd.block.trans hc'.same.block.symm)
  · exact hc.same.node.trans (hd.node.trans hc'.same.node.symm)
  · exact hc.same.origin.trans (hd.origin.trans hc'.same.origin.symm)
  · exact hc.same.armDepth.trans (hd.armDepth.trans hc'.same.armDepth.symm)
  · dsimp only
    rw [hc.same.values, hc'.same.values]
    exact hs.values.imp fun _ _ hv => ⟨hv.1, hle.regs hv.2.1, hv.2.2⟩
  · dsimp only
    rw [hc.same.upsilons, hc'.same.upsilons]
    exact hs.upsilons.imp fun _ _ hu => ⟨hu.1, hle.regs hu.2⟩
  · dsimp only
    rw [hc.same.availability]
    exact hs.fits
  · simp only [hc.stats, ExitTable.pushExit, Array.size_push, hc.exits, hs.count]
  · simp only [ExitTable.pushExit, Array.size_push, hc.exits, hc'.exits, hs.size]
  · obtain ⟨place, hb⟩ := hadds
    obtain ⟨place', hb'⟩ := hadds'
    intro i i' id regs regs' e₀ e₀' hi hi' he he'
    rw [exit?_pushExit, hr.exit?, hr.exits_size] at he
    rw [exit?_pushExit, hr'.exit?, hr'.exits_size, ← hs.size] at he'
    rw [hb] at hi
    rw [hb', ← hs.size] at hi'
    by_cases hid : id = ⟨s.exits.exits.size⟩
    · -- the new exit on both sides
      obtain rfl := hid
      obtain rfl := (he.resolve_left exit?_ne).2
      obtain rfl := (he'.resolve_left (hs.size ▸ exit?_ne)).2
      obtain ⟨-, -, rfl⟩ := hi.resolve_left hs.left.unplaced
      obtain ⟨-, -, rfl⟩ := hi'.resolve_left (hs.size ▸ hs.right.unplaced)
      exact (hr.twins hr' hs hle hK hK' hprofile).mono (fun _ _ h => h) (fun _ _ => rfl)
        fun _ _ => rfl
    · have hne {A B : Prop} (h : A ∨ id = ⟨s.exits.exits.size⟩ ∧ B) : A :=
        h.resolve_right fun h => hid h.1
      have hne' {A B C : Prop} (h : A ∨ B ∧ id = ⟨s.exits.exits.size⟩ ∧ C) : A :=
        h.resolve_right fun h => hid h.2.1
      exact (hs.exits (hne' hi) (hne' hi') (hne he) (hne he')).mono (fun _ _ hC => hC.mono hle)
        hr.kept hr'.kept

/-- What building an exit leaves to be done: the exit has to be placed. -/
theorem Twin.buildExit {id id' : ExitId} {regs regs' : List Reg} (hs : Twin E π s s')
    (hprofile : Option.Rel π.regs profile profile')
    (h : buildExit kind profile E.leftEnv s = .ok ((id, regs), s₁))
    (h' : buildExit kind profile' E.rightEnv s' = .ok ((id', regs'), s₁')) :
    id = id' ∧ ∃ π₁, π.Le π₁ ∧ Builder.Loose π₁ s₁.builder s₁'.builder ∧
      ∀ {π₂ b b'}, π₁.Le π₂ → Builder.Pairs π₂ b b' → AddsExit s₁.builder id regs b →
      AddsExit s₁'.builder id regs' b' →
        Twin E π₂ { s₁ with builder := b } { s₁' with builder := b' } := by
  obtain ⟨K, c, e, s₁, hr, rfl, rfl, rfl⟩ := buildExit_records h
  obtain ⟨K', c', e', s₁', hr', rfl, rfl, rfl⟩ := buildExit_records h'
  obtain ⟨xs, hc, -⟩ := hr.collects
  obtain ⟨xs', hc', -⟩ := hr'.collects
  obtain ⟨π₀, hle₀, hloose₀, hK⟩ := hs.builder.loose.setsAside hc.aside
  obtain ⟨π₁, hle₁, hloose₁, hK'⟩ := hloose₀.flip.setsAside hc'.aside
  have hsize : s₁.exits.exits.size = s₁'.exits.exits.size := by
    rw [hr.exits_size, hr'.exits_size, hs.size]
  refine ⟨by
    rw [hsize], π₁.flip, hle₀.trans hle₁.flip, hloose₁.flip, fun {π₂ b b'} hle₂ hb hadds hadds' =>
      ?_⟩
  refine hs.leave hr hr' hprofile (hle₀.trans (hle₁.flip.trans hle₂)) (fun q hq => ?_)
    (fun q hq => ?_) hb ?_ ?_
  · exact hle₂.left (hle₁.flip.left (hK q hq))
  · exact hle₂.right (hK' q hq)
  · rw [← hr.exits_size]
    exact hadds.after (.setsAside hc.aside)
  · rw [← hr'.exits_size, ← hsize]
    exact hadds'.after (.setsAside hc'.aside)

/-! ## Leaving -/

/-- An exit is placed on both sides. -/
theorem exit_placed {b b' b₁ b₁' : Builder} {id : ExitId} {regs regs' : List Reg} {u u' : Unit}
    (hb : Builder.Loose π b b') (h : Emit.exit id regs b = .ok (u, b₁))
    (h' : Emit.exit id regs' b' = .ok (u', b₁')) :
    ∃ π', π.Le π' ∧ Builder.Pairs π' b₁ b₁' ∧ AddsExit b id regs b₁ ∧ AddsExit b' id regs' b₁' := by
  obtain ⟨b₀, h₀, rfl⟩ := Emit.terminate_ok h
  obtain ⟨b₀', h₀', rfl⟩ := Emit.terminate_ok h'
  have ho := Emit.ensureOpen_opened h₀
  have ho' := Emit.ensureOpen_opened h₀'
  obtain ⟨π', hle, hpairs⟩ := hb.opened ho ho'
  have hopen := hb.proper.opened ho
  have hopen' := hb.proper'.opened ho'
  refine ⟨π', hle, hpairs.close (.exit id regs regs'),
    AddsExit.after ⟨b₀.current.index, fun i id' regs'' => ?_⟩ (.opened ho),
    AddsExit.after ⟨b₀'.current.index, fun i id' regs'' => ?_⟩ (.opened ho')⟩
  · rw [Builder.exitsAt_close hopen.1 hopen.2, Terminator.exit.injEq, @eq_comm _ id,
      @eq_comm _ regs]
  · rw [Builder.exitsAt_close hopen'.1 hopen'.2, Terminator.exit.injEq, @eq_comm _ id,
      @eq_comm _ regs']

/-- The register that a profile records, if any, goes together on both sides. -/
class GivesOption (Γ : List Link) (o o' : Option Reg) : Prop where
  holds : ∀ {π : Pairing}, π.Has Γ → Option.Rel π.regs o o'

instance : GivesOption Γ none none := ⟨fun _ => .none⟩

instance (r r' : Reg) [h : Gives Γ (.reg r r')] : GivesOption Γ (some r) (some r') :=
  ⟨fun hΓ => .some (h.holds hΓ)⟩

instance (L : Link) (o o' : Option Reg) [h : GivesOption Γ o o'] : GivesOption (L :: Γ) o o' :=
  ⟨fun hΓ => h.holds (List.forall_mem_cons.1 hΓ).2⟩

instance (Δ : List Link) (o o' : Option Reg) [h : GivesOption Γ o o'] : GivesOption (Δ ++ Γ) o o' :=
  ⟨fun hΓ => h.holds (List.forall_mem_append.1 hΓ).2⟩

instance : Alike E Γ countCheck countCheck := inStep_countStats fun _ => rfl

/-- An exit in place, and what follows. -/
theorem inStep_exit {α ι : Type} {x y : Lower α} {l r : ι → α} {P : ι → List Link} {kind : ExitKind}
    [hp : GivesOption Γ profile profile'] (hxy : InStep E Γ x y l r P) :
    InStep E Γ (do
      let (exit, captured) ← buildExit kind profile
      Emit.exit exit captured
      x) (do
      let (exit, captured) ← buildExit kind profile'
      Emit.exit exit captured
      y) l r P where
  steps π s s' a a' s₂ s₂' hs hΓ hx hy := by
    obtain ⟨⟨id, regs⟩, s₁, h₁, hx⟩ := bind_ok hx
    obtain ⟨⟨id', regs'⟩, s₁', h₁', hy⟩ := bind_ok hy
    obtain ⟨rfl, π₁, hle₁, hloose, hplace⟩ := hs.buildExit (hp.holds hΓ) h₁ h₁'
    obtain ⟨_, b, hb, hx⟩ := emit_bind_ok hx
    obtain ⟨_, b', hb', hy⟩ := emit_bind_ok hy
    obtain ⟨π₂, hle₂, hpairs, hadds, hadds'⟩ := exit_placed hloose hb hb'
    have hle := hle₁.trans hle₂
    obtain ⟨π₃, i, hle₃, hrest⟩ :=
      hxy.steps π₂ _ _ a a' s₂ s₂' (hplace hle₂ hpairs hadds hadds') (hΓ.mono hle) hx hy
    exact ⟨π₃, i, hle.trans hle₃, hrest⟩

instance (kind : ExitKind) (profile profile' : Option Reg) [GivesOption Γ profile profile'] :
    Alike E Γ (exitHere kind profile) (exitHere kind profile') := inStep_exit inferInstance

/-- The two blocks of a speculation, and the branch to them. -/
theorem fork_placed {b b' b₁ b₁' : Builder} {failing failing' : Reg} {u u' : Unit}
    (hb : Builder.Loose π b b')
    (hf : π.regs failing failing')
    (h : Emit.branch failing ⟨b.func.blocks.size⟩ ⟨(b.addBlock true).func.blocks.size⟩ .takenRare
      ((b.addBlock true).addBlock false) =
      .ok (u, b₁))
    (h' : Emit.branch failing' ⟨b'.func.blocks.size⟩ ⟨(b'.addBlock true).func.blocks.size⟩
      .takenRare
      ((b'.addBlock true).addBlock false) = .ok (u', b₁')) :
    ∃ π', π.Le π' ∧ Builder.Pairs π' b₁ b₁' ∧ b.SameExits b₁ ∧ b'.SameExits b₁' ∧
      π'.blocks ⟨b.func.blocks.size⟩ ⟨b'.func.blocks.size⟩ ∧
      π'.blocks ⟨(b.addBlock true).func.blocks.size⟩ ⟨(b'.addBlock true).func.blocks.size⟩ := by
  have hb₂ := (hb.addBlock true true).addBlock false false
  obtain ⟨b₀, h₀, rfl⟩ := Emit.terminate_ok h
  obtain ⟨b₀', h₀', rfl⟩ := Emit.terminate_ok h'
  have ho := Emit.ensureOpen_opened h₀
  have ho' := Emit.ensureOpen_opened h₀'
  have hopen := hb₂.proper.opened ho
  have hopen' := hb₂.proper'.opened ho'
  obtain ⟨π', hle, hpairs⟩ := hb₂.opened ho ho'
  have hle₂ := ((π.le_addBlock _ _).trans (Pairing.le_addBlock _ _ _)).trans hle
  have hcold := hle.blocks (.inl (.inr ⟨rfl, rfl⟩))
  have hnext := hle.blocks (.inr ⟨rfl, rfl⟩)
  refine ⟨π', hle₂, hpairs.close (.branch _ (hle₂.regs hf) hcold .nil hnext .nil), ?_, ?_, hcold,
    hnext⟩
  · exact ((b.sameExits_addBlock true).trans ((Builder.sameExits_addBlock _ false).trans
      (.opened ho))).trans
      (Builder.sameExits_close hopen.1 hopen.2 (by simp))
  · exact ((b'.sameExits_addBlock true).trans ((Builder.sameExits_addBlock _ false).trans
      (.opened ho'))).trans
      (Builder.sameExits_close hopen'.1 hopen'.2 (by simp))

instance (kind : ExitKind) (profile profile' : Option Reg) (failing failing' : Reg)
    [hp : GivesOption Γ profile profile'] [hf : Gives Γ (.reg failing failing')] :
    Alike E Γ (speculate kind profile failing) (speculate kind profile' failing') where
  steps π s s' u u' s₂ s₂' hs hΓ hx hy := by
    obtain ⟨⟨id, regs⟩, s₁, h₁, hx⟩ := bind_ok hx
    obtain ⟨⟨id', regs'⟩, s₁', h₁', hy⟩ := bind_ok hy
    obtain ⟨rfl, π₁, hle₁, hloose, hplace⟩ := hs.buildExit (hp.holds hΓ) h₁ h₁'
    obtain ⟨_, _, hb₁, hx⟩ := emit_bind_ok hx
    obtain ⟨_, _, hb₁', hy⟩ := emit_bind_ok hy
    obtain ⟨rfl, rfl⟩ := Emit.createBlock_ok hb₁
    obtain ⟨rfl, rfl⟩ := Emit.createBlock_ok hb₁'
    obtain ⟨_, _, hb₂, hx⟩ := emit_bind_ok hx
    obtain ⟨_, _, hb₂', hy⟩ := emit_bind_ok hy
    obtain ⟨rfl, rfl⟩ := Emit.createBlock_ok hb₂
    obtain ⟨rfl, rfl⟩ := Emit.createBlock_ok hb₂'
    obtain ⟨_, b₃, hb₃, hx⟩ := emit_bind_ok hx
    obtain ⟨_, b₃', hb₃', hy⟩ := emit_bind_ok hy
    obtain ⟨π₃, hle₃, hpairs₃, hsame, hsame', hcold, hnext⟩ :=
      fork_placed hloose (hle₁.regs (hf.holds hΓ)) hb₃ hb₃'
    obtain ⟨_, _, hb₄, hx⟩ := emit_bind_ok hx
    obtain ⟨_, _, hb₄', hy⟩ := emit_bind_ok hy
    obtain rfl := Emit.switchTo_ok hb₄
    obtain rfl := Emit.switchTo_ok hb₄'
    obtain ⟨_, b₅, hb₅, hx⟩ := emit_bind_ok hx
    obtain ⟨_, b₅', hb₅', hy⟩ := emit_bind_ok hy
    obtain ⟨π₅, hle₅, hpairs₅, hadds, hadds'⟩ := exit_placed (hpairs₃.goTo hcold).loose hb₅ hb₅'
    obtain ⟨_, _, hb₆, hx⟩ := emit_bind_ok hx
    obtain ⟨_, _, hb₆', hy⟩ := emit_bind_ok hy
    obtain rfl := Emit.switchTo_ok hb₆
    obtain rfl := Emit.switchTo_ok hb₆'
    have hs₆ := hplace (hle₃.trans hle₅) (hpairs₅.goTo (hle₅.blocks hnext))
      (hadds.after (hsame.trans (b₃.sameExits_goTo _)))
      (hadds'.after (hsame'.trans (b₃'.sameExits_goTo _)))
    obtain ⟨π₇, _, hle₇, hs₇, rfl, rfl, hP⟩ :=
      (inferInstance : Alike E Γ countCheck countCheck).steps π₅ _ _ _ _ _ _ hs₆
      (hΓ.mono (hle₁.trans (hle₃.trans hle₅))) hx hy
    exact ⟨π₇, (), hle₁.trans (hle₃.trans (hle₅.trans hle₇)), hs₇, rfl, rfl, hP⟩

instance (kind : ExitKind) : Alike E Γ (terminate kind) (terminate kind) := by
  refine inStep_get fun s s' hs => .bind inferInstance fun ended => ?_
  rw [hs.facts]
  split
  · infer_instance
  · refine inStep_exit (.bind (inStep_modify fun {π s s'} h _ => ?_) fun _ => inferInstance)
    exact h.keep (.refl h.builder) ⟨congrArg (·.invalidate) h.data.facts, h.data.availability,
      h.data.caches, by simp only [h.data.stats],
      h.data.block, h.data.node, h.data.origin, h.data.armDepth⟩ ⟨rfl, rfl⟩ ⟨rfl, rfl⟩ ⟨rfl, rfl⟩
        rfl h.fits

end SpecJit.Lowering
