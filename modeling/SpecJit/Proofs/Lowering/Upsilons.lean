import SpecJit.Proofs.Execution
import SpecJit.Proofs.Lowering.CellUses
import SpecJit.Proofs.Lowering.Uses

/-!
# Phis between an upsilon and the edge

The value of a phi changes when control takes an edge to the block of the phi: an upsilon only
chooses the register that the edge will hand over. The facts change at once. So from an upsilon up
to the edge the fact about the phi is the one about the next value, and is true of the present one
only by chance (`phi_fact_after_upsilon_iff`).
-/

namespace SpecJit

namespace AbstractState

variable {g : Graph} {s s' : AbstractState} {id phi : NodeId} {node : Node} {e : Edge}
  {v : AbstractValue}

/-- The fact about a use after it was narrowed. -/
theorem filterUses_single (h : filterUses g [e] s = .ok s') (hv : s.factOf g e.node = .ok v) :
    s'.factOf g e.node = .ok (if e.useKind == .untyped then v else v.filter
      e.useKind.typeFilter) := by
  rw [filterUses] at h
  split at h
  · rename_i hk
    cases h
    rw [hv, if_pos hk]
  · rename_i hk
    obtain ⟨s₁, h₁, h⟩ := bind_eq_ok_iff.1 h
    obtain rfl := filter_ok h₁ hv
    rw [if_neg hk]
    split at h
    · cases h
      exact factOf_narrowTo ..
    · cases h
      exact factOf_narrowTo ..

/-- An upsilon gives its phi the fact about the used value. -/
theorem execute_upsilon (h : s.execute g id = .ok s') (hvalid : s'.valid = true)
    (hnode : g.node id = .ok node) (hop : node.op = .upsilon phi) (hchild : node.children = [e])
    (hv : s.factOf g e.node = .ok v) :
    ∃ known, known = (if e.useKind == .untyped then v else v.filter e.useKind.typeFilter) ∧
      s'.current.get? phi = some known ∧ s'.factOf g e.node = .ok known := by
  obtain ⟨node', s₁, s₂, hn, hu, -, -, ht, rfl⟩ := execute_ok h hvalid
  rw [hnode] at hn
  cases hn
  rw [hchild] at hu
  have hfact := filterUses_single hu hv
  generalize (if e.useKind == .untyped then v else v.filter e.useKind.typeFilter) = known at hfact
  have huse : s₁.useFact g node 0 = .ok known := by
    rw [useFact, show node.child 0 = .ok e by simp [Node.child, hchild, Fault.ofOption]]
    exact hfact
  obtain rfl : s₁.setFact phi known = s₂ := by
    unfold transfer at ht
    rw [hop] at ht
    dsimp only at ht
    rw [huse] at ht
    cases ht
    rfl
  have hclobber : node.op.clobbersWorld = false := by rw [hop]; rfl
  rw [hclobber, if_neg Bool.false_ne_true]
  refine ⟨known, rfl, get?_setFact_self .., ?_⟩
  by_cases hx : e.node = phi
  · rw [hx]
    exact factOf_of_get? (get?_setFact_self ..)
  · rw [factOf_setFact_ne hx]
    exact hfact

end AbstractState

namespace Lowering

open Lir Value

section

variable {σ : Type} {m : Machine σ} {c : Config σ} {env : Env} {s s' : State} {id phi : NodeId}
  {node target : Node} {e : Edge} {r q : Reg} {w u : Word}

/-- An upsilon leaves, or comes to its end. Then the phi is held in the register it was held in,
which holds the word it held, and the value is ready to be handed over. The fact about the phi,
there and after nodes that do not concern it, is the fact about the value: it is true of the value,
and it is true of what the phi holds exactly if the fact about the value is. -/
theorem phi_fact_after_upsilon_iff {rest : List NodeId} {facts : AbstractState} {v : AbstractValue}
    (hnode : env.graph.node id = .ok node) (hop : node.op = .upsilon phi)
    (hchild : node.children = [e]) (htarget : env.graph.node phi = .ok target)
    (hform : target.result = .jsValue ∨ target.result = .cell)
    (h : lowerOp id node env s = .ok ((), s')) (hm : s'.builder.Completes m.func)
    (hc : m.At s.builder c) (hphi : Boxed env s phi r) (hw : c.Has s.builder r .i64 w)
    (hvalue : Boxed env s e.node q) (hu : c.Has s.builder q .i64 u)
    (hi : Informed env c.memory s e.node u) (ho : Sees env c.memory e u)
    (hrest : ∀ x ∈ rest, ¬ env.graph.Concerns x phi)
    (hexec : s'.facts.executeAll env.graph (id :: rest) = .ok facts) (hvalid : facts.valid = true)
    (hfact : facts.factOf env.graph phi = .ok v) :
    m.Leaves s'.builder c ∨
      (m.Runs s.builder c s'.builder fun c' => Boxed env s' phi r ∧ c'.Has s'.builder r .i64 w ∧
        s'.upsilons.lookup phi = some q ∧ c'.Has s'.builder q .i64 u) ∧
      ∃ facts₁ known, s'.facts.execute env.graph id = .ok facts₁ ∧ facts₁.factOf env.graph
        e.node = .ok known ∧
        v.Describes (kindOf env.layout c.memory u) ∧
        (v.Describes (kindOf env.layout c.memory w) ↔
          known.Describes (kindOf env.layout c.memory w)) := by
  have hlower : lowerOp id node = lowerUpsilon node phi := by simp only [lowerOp, hop]
  rw [hlower, lowerUpsilon] at h
  obtain ⟨e', he', h⟩ := check_bind_ok h
  rw [child_eq hchild] at he'
  cases he'
  obtain ⟨target', htarget', h⟩ := getNode_bind_ok h
  rw [htarget] at htarget'
  cases htarget'
  have hread :
    (asValue e >>= fun value => (modify fun s => { s with upsilons := (phi, value) :: s.upsilons }
      : Lower Unit))
      env s = .ok ((), s') := by rcases hform with hform | hform <;> rw [hform] at h <;> exact h
  obtain ⟨q', s₁, h₁, h⟩ := bind_ok hread
  cases h
  obtain ⟨rfl, hleave | ⟨hvalues, hblock, hi₁, hmask, hruns⟩⟩ :=
    asValue_reads h₁ hm hc hvalue hu hi ho
  · exact .inl hleave
  have e₁ : s.builder.Emits [] s₁.builder := Tidy.after h₁ (.refl hc.wf)
  refine .inr ⟨hruns.mono fun c' hk _ => ⟨hphi.of_values hvalues hblock, hw.keep e₁.toExtends hk,
    by simp,
    hu.keep e₁.toExtends hk⟩, ?_⟩
  -- the facts
  rw [AbstractState.executeAll] at hexec
  obtain ⟨facts₁, hexec₁, hexec⟩ := bind_eq_ok_iff.1 hexec
  obtain ⟨known₀, hknown₀, hdesc⟩ := hi₁.fact
  split at hexec
  case isFalse hinvalid =>
    cases hexec
    exact absurd hvalid hinvalid
  case isTrue hvalid₁ =>
    obtain ⟨known, hknown, hget, hsame⟩ := AbstractState.execute_upsilon hexec₁ hvalid₁ hnode hop
      hchild hknown₀
    obtain ⟨v', hget', hty, hconst⟩ := AbstractState.executeAll_kept hexec hvalid hrest hget
    obtain rfl : v' = v := by
      rw [AbstractState.factOf_of_get? hget'] at hfact
      exact Except.ok.inj hfact
    have hiff (kind : SpecType) : v'.Describes kind ↔ known.Describes kind := by
      constructor
      · rintro ⟨hne, hall, hc⟩
        exact ⟨hne, hty ▸ hall, hconst ▸ hc⟩
      · rintro ⟨hne, hall, hc⟩
        exact ⟨hne, hty.symm ▸ hall, hconst.symm ▸ hc⟩
    refine ⟨facts₁, known, hexec₁, hsame, (hiff _).2 ?_, hiff _⟩
    rw [hknown]
    split
    · exact hdesc
    · exact hdesc.filter hmask

end

/-! ## A phi that is taken for its next value

In a loop the value for the next round is known to be an integer before the round is over. What the
phi holds may be no integer, but a check of the phi behind the loop is left out. -/

/-- Goes on with 7 until the second argument is true. Returns the value of the last round after a
check that it is an integer of 32 bits. -/
def sevenLater : Graph where
  name := "sevenLater"
  nodes := #[
    { op := .getStack { operand := .arg 1, slot := .arg 1, format := .jsValue },
      result := .jsValue },
    { op := .getStack { operand := .arg 2, slot := .arg 2, format := .jsValue },
      result := .jsValue },
    { op := .upsilon ⟨4⟩, children := [{ node := ⟨0⟩ }] },
    { op := .jump ⟨1⟩ },
    { op := .phi, result := .jsValue },
    { op := .jsConstant (.int32 7), result := .jsValue },
    { op := .upsilon ⟨4⟩, children := [{ node := ⟨5⟩ }] },
    { op := .branch { taken := ⟨2⟩, notTaken := ⟨1⟩ },
      children := [{ node := ⟨1⟩, useKind := .boolean }] },
    { op := .check, children := [{ node := ⟨4⟩, useKind := .int32 }] },
    { op := .ret, children := [{ node := ⟨4⟩ }] }]
  blocks := #[{ index := ⟨0⟩, nodes := #[⟨0⟩, ⟨1⟩, ⟨2⟩, ⟨3⟩] },
    { index := ⟨1⟩, nodes := #[⟨4⟩, ⟨5⟩, ⟨6⟩, ⟨7⟩], predecessors := [⟨0⟩, ⟨1⟩] },
    { index := ⟨2⟩, nodes := #[⟨8⟩, ⟨9⟩], predecessors := [⟨1⟩] }]
  numArguments := 3
  numLocals := 0

/-- What the analysis says about the phi behind the loop. -/
def sevenLaterFact : Option AbstractValue :=
  match AbstractState.fixpoint sevenLater 8 with
  | .ok s => (s.blocks[2]?).bind (·.head.get? ⟨4⟩)
  | .error _ => none

/-- If the second argument is true in the first round, the check lets a fraction pass: the fact at
the head of the last block is that the phi is 7. -/
theorem sevenLater_returns_fraction :
    sevenLater.canCompile.isOk = true ∧
      simulated sevenLater (Simulation.FrameValues.memory { arguments := [fraction, trueWord] })
        = some (.returned fraction) ∧
      passes {} {} fraction .int32 = false ∧
      sevenLaterFact.map (fun v => (kindOf {} {} fraction).isSubsetOf v.ty) = some false := by
  refine ⟨by decide, by decide +kernel, by decide, by decide +kernel⟩

namespace LastRound

def env : Env where
  graph := sevenLater
  options := {}
  layout := {}
  dominators := { parents := #[some ⟨0⟩, some ⟨0⟩, some ⟨1⟩], numbers := #[some 0, some 1, some 2] }
  availabilityHeads := #[]
  phiParams := [(⟨4⟩, ⟨2⟩)]
  exitOnly := []
  context := ⟨0⟩
  frame := ⟨1⟩

/-- Before the upsilon in the loop: register 2 holds the phi and register 3 the constant. -/
def before : State where
  builder := {
    func := { name := "sevenLater", blocks := #[{}], types := #[.i64, .i64, .i64, .i64] }
    terminated := #[false]
    current := ⟨0⟩ }
  facts := { blocks := #[], current := (Facts.empty sevenLater).set ⟨5⟩ (.constant {} (.int32 7)),
             valid := true }
  availability := .empty sevenLater
  block := ⟨1⟩
  values := [((⟨5⟩, .jsValue), ⟨3⟩, ⟨1⟩), ((⟨4⟩, .jsValue), ⟨2⟩, ⟨1⟩)]

def use : Edge := { node := ⟨5⟩ }

def node : Node := { op := .upsilon ⟨4⟩, children := [use] }

def after : State := { before with upsilons := [(⟨4⟩, ⟨3⟩)] }

def config : Config Simulation.RuntimeState where
  registers := #[none, none, some fraction, some (Value.boxInt32 7)]
  memory := {}
  runtimeState := {}

theorem before_at : (simulator before.builder.func).At before.builder config where
  wf := ⟨rfl, by decide⟩
  isOpen := rfl
  block := rfl
  position blk hb := by cases hb; rfl
  registers := rfl

theorem before_phi : Boxed env before ⟨4⟩ ⟨2⟩ where
  held := rfl
  only form hne := by cases form <;> first | rfl | exact absurd rfl hne

theorem before_value : Boxed env before ⟨5⟩ ⟨3⟩ where
  held := rfl
  only form hne := by cases form <;> first | rfl | exact absurd rfl hne

theorem before_informed : Informed env {} before ⟨5⟩ (Value.boxInt32 7) where
  valid := rfl
  depth := rfl
  fact := ⟨_, rfl, by decide, by decide, fun _ hc => by cases hc; decide⟩

/-- The facts behind the upsilon and the branch. -/
def facts : AbstractState :=
  match after.facts.executeAll sevenLater [⟨6⟩, ⟨7⟩] with
  | .ok s => s
  | .error _ => default

end LastRound

/-- In a round that starts with a fraction, the fact about the phi at the end of the round is not
true of it. -/
theorem phi_fact_after_upsilon_sevenLater : ∃ v,
    lowerOp ⟨6⟩ LastRound.node LastRound.env LastRound.before = .ok ((), LastRound.after) ∧
      LastRound.after.facts.executeAll sevenLater [⟨6⟩, ⟨7⟩] = .ok LastRound.facts ∧
      LastRound.facts.factOf sevenLater ⟨4⟩ = .ok v ∧ v.Describes (kindOf {} {} (Value.boxInt32 7))
        ∧
      Boxed LastRound.env LastRound.after ⟨4⟩ ⟨2⟩ ∧ ¬ v.Describes (kindOf {} {} fraction) := by
  have hlower : lowerOp ⟨6⟩ LastRound.node LastRound.env LastRound.before = .ok ((),
    LastRound.after) := rfl
  have hexec : LastRound.after.facts.executeAll sevenLater [⟨6⟩, ⟨7⟩] = .ok LastRound.facts := rfl
  have hfact : LastRound.facts.factOf sevenLater ⟨4⟩ = .ok (.constant {} (.int32 7)) := rfl
  have hrest (x : NodeId) (hx : x ∈ [(⟨7⟩ : NodeId)]) : ¬ sevenLater.Concerns x ⟨4⟩ := by
    rw [List.mem_singleton] at hx
    subst hx
    rintro (hx | ⟨node, hnode, hx⟩)
    · cases hx
    · cases hnode
      rcases hx with hx | ⟨e, he, hx⟩
      · cases hx
      · obtain rfl : e = { node := ⟨1⟩, useKind := .boolean } := List.mem_singleton.1 he
        cases hx
  rcases phi_fact_after_upsilon_iff (m := simulator LastRound.before.builder.func) (c :=
    LastRound.config) (e :=
    LastRound.use) (r := ⟨2⟩) (w := fraction) (q := ⟨3⟩)
    rfl rfl rfl rfl (.inl rfl) hlower LastRound.before.builder.completes_self LastRound.before_at
      LastRound.before_phi
    ⟨rfl, rfl⟩ LastRound.before_value ⟨rfl, rfl⟩ LastRound.before_informed (.inl ⟨rfl, by decide⟩)
      hrest hexec rfl hfact with
    hleave | ⟨⟨c', -, -, -, hboxed, -⟩, facts₁, known, hexec₁, hknown, hvalue, hiff⟩
  · exact absurd LastRound.before_at (hleave.not_at (.refl _))
  · refine ⟨_, hlower, hexec, hfact, hvalue, hboxed, fun hdesc => ?_⟩
    have hallowed := hdesc.allowed
    revert hallowed
    decide

end Lowering

end SpecJit
