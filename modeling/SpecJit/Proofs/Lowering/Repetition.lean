import SpecJit.Proofs.Lowering.DeadEnds
import SpecJit.Proofs.Results

/-!
# Lowering a block a second time

A block that was lowered has its terminator, whatever its operations and however its code was split
(`lowerBlock_closed`). So a second turn adds nothing: it only says where code goes next
(`lowerBlock_again`), and since every turn starts by saying that, the turns that follow do not
notice (`lowerBlock_goTo`). Lowering blocks with repetitions is lowering each of them where it comes
first (`relowered_unchanged`).
-/

namespace SpecJit.Lowering

open Lir

variable {env : Env} {s s' : State} {u : Unit} {b : BlockIndex}

/-! ## Where code goes next -/

/-- The state in which code goes to block `p` next. All that was lowered is as it was. -/
def State.goTo (s : State) (p : BlockId) : State := { s with builder := s.builder.goTo p }

/-- The session in which code goes to block `p` next. -/
def Session.goTo (session : Session) (p : BlockId) : Session :=
  { session with state := session.state.goTo p }

@[simp] theorem Session.finish_goTo (session : Session) (p : BlockId) :
    (session.goTo p).finish = session.finish := rfl

/-- A turn does not depend on where code went before it. -/
theorem lowerBlock_goTo (p : BlockId) : lowerBlock b env (s.goTo p) = lowerBlock b env s := by
  rw [lowerBlock, read_bind, read_bind]
  cases env.bodyBlock b <;> rfl

theorem forM_lowerBlock_goTo {blocks : List BlockIndex}
    (h : blocks.forM lowerBlock env s = .ok (u, s')) (p : BlockId) :
    ∃ q, blocks.forM lowerBlock env (s.goTo p) = .ok ((), s'.goTo q) := by
  cases blocks with
  | nil =>
    cases h
    exact ⟨p, rfl⟩
  | cons b rest =>
    refine ⟨s'.builder.current, ?_⟩
    rw [forM_cons] at h ⊢
    obtain ⟨_, s₁, h₁, h⟩ := bind_ok h
    rw [bind_of_ok ((lowerBlock_goTo p).trans h₁)]
    exact h

/-! ## A turn ends the block -/

/-- Ending a block, or what follows a block that has ended. -/
theorem terminate_grows {t : Terminator} {builder builder' : Builder} (hw : builder.WellFormed)
    (h : Emit.terminate t builder = .ok (u, builder')) :
    builder.Grows [] builder' ∧ builder'.IsClosed builder'.current.index := by
  obtain ⟨b₁, h₁, rfl⟩ := Emit.terminate_ok h
  obtain ⟨e₁, hopen⟩ := Emit.ensureOpen_emits hw h₁
  exact ⟨e₁.toGrows.trans (Builder.close_grows e₁.after hopen t), Builder.close_isClosed e₁.after t⟩

theorem endUnreachable_grows (hw : s.builder.WellFormed) (h : endUnreachable env s = .ok (u, s')) :
    s.builder.Grows [] s'.builder ∧ s'.builder.IsClosed s'.builder.current.index := by
  obtain ⟨_, b₁, h₁, h⟩ := emit_bind_ok h
  obtain ⟨_, s₂, h₂, h⟩ := bind_ok h
  cases h₂
  rw [invalidateDominated, read_bind, get_bind] at h
  obtain ⟨facts, -, h⟩ := check_bind_ok h
  cases h
  exact terminate_grows hw h₁

/-- The code of any node leaves nothing pending. -/
theorem lowerOp_grows {id : NodeId} {node : Node} (hw : s.builder.WellFormed)
    (h : lowerOp id node env s = .ok (u, s')) :
    s.builder.Grows [] s'.builder := by
  by_cases hu : node.op = .unreachable
  · rw [lowerOp, hu] at h
    obtain ⟨b', hb, rfl⟩ := emit_ok h
    exact (terminate_grows hw hb).1
  by_cases hbottom : node.op = .bottomValue
  · rw [lowerOp, hbottom] at h
    exact (endUnreachable_grows hw h).1
  have := tidy_lowerOp id hu hbottom
  exact (Tidy.after h (.refl hw)).toGrows

theorem lowerNode_grows {id : NodeId} (hw : s.builder.WellFormed)
    (h : lowerNode id env s = .ok (u, s')) :
    s.builder.Grows [] s'.builder := by
  obtain ⟨node, s₁, -, hop, hafter⟩ := lowerNode_ok h
  have e₁ := lowerOp_grows (s := { s with node := some id, origin := node.origin }) hw hop
  cases hafter with
  | ended _ heq => rwa [heq]
  | goesOn _ _ _ heq => rwa [heq]
  | deadEnd hopen _ _ heq =>
    rw [heq]
    exact e₁.trans (Builder.close_grows e₁.after hopen .unreachable)

theorem lowerNodes_grows {nodes : List NodeId} (hw : s.builder.WellFormed)
    (h : lowerNodes nodes env s = .ok (u, s')) :
    s.builder.Grows [] s'.builder := by
  induction nodes generalizing s with
  | nil =>
    cases h
    exact (Builder.Emits.refl hw).toGrows
  | cons id rest ih =>
    cases hvalid : s.facts.valid with
    | false =>
      rw [lowerNodes_of_invalid _ hvalid] at h
      cases h
      exact (Builder.Emits.refl hw).toGrows
    | true =>
      rw [lowerNodes_cons hvalid] at h
      obtain ⟨_, s₁, h₁, h⟩ := bind_ok h
      have e₁ := lowerNode_grows hw h₁
      exact e₁.trans (ih e₁.after h)

theorem lowerReachedBlock_grows (hw : s.builder.WellFormed)
    (h : lowerReachedBlock b env s = .ok (u, s')) :
    s.builder.Grows [] s'.builder ∧ s'.builder.IsClosed s'.builder.current.index := by
  rw [lowerReachedBlock, read_bind, get_bind] at h
  obtain ⟨facts, -, h⟩ := check_bind_ok h
  obtain ⟨_, s₁, h₁, h⟩ := bind_ok h
  have hsame : s₁.builder = s.builder := by cases h₁; rfl
  obtain ⟨block, -, h⟩ := check_bind_ok h
  obtain ⟨_, s₂, h₂, h⟩ := bind_ok h
  have e₂ := lowerNodes_grows (hsame ▸ hw) h₂
  rw [hsame] at e₂
  obtain ⟨t, b₃, h₃, h⟩ := emit_bind_ok h
  obtain ⟨rfl, ht⟩ := Emit.isTerminated_ok h₃
  cases t with
  | true =>
    cases h
    exact ⟨e₂, ht⟩
  | false =>
    simp only [Bool.not_false, if_true] at h
    rw [get_bind] at h
    cases hvalid : s₂.facts.valid with
    | true =>
      simp only [hvalid, if_true] at h
      cases h
    | false =>
      simp only [hvalid, Bool.false_eq_true, if_false] at h
      obtain ⟨e₃, hclosed⟩ := endUnreachable_grows e₂.after h
      exact ⟨e₂.trans e₃, hclosed⟩

/-- The blocks of the graph have their blocks in the function. -/
structure Underway (env : Env) (s : State) : Prop where
  wf : s.builder.WellFormed
  size : env.graph.blocks.size < s.builder.func.blocks.size

theorem Underway.goTo (hs : Underway env s) (hb : b.index < env.graph.blocks.size) :
    Underway env (s.goTo ⟨b.index + 1⟩) :=
  ⟨⟨hs.wf.flags, Nat.lt_of_le_of_lt hb hs.size⟩, hs.size⟩

/-- Growth that ends with the current block has ended the block that it started with. -/
theorem closed_of_grows {builder builder' : Builder} (h : builder.Grows [] builder')
    (hclosed : builder'.IsClosed builder'.current.index) :
    builder'.IsClosed builder.current.index := by
  have hlt : builder.current.index < builder'.func.blocks.size :=
    Nat.lt_of_lt_of_le h.before.current h.toExtends.size_le
  refine (h.after.open_or_closed hlt).resolve_left fun hopen => ?_
  rw [h.left hopen] at hclosed
  exact hopen.not_closed hclosed

/-- After its turn a block has its terminator, and what had its terminator before is as it was. -/
theorem lowerBlock_closed (hs : Underway env s) (h : lowerBlock b env s = .ok (u, s')) :
    Underway env s' ∧ s.builder.Extends s'.builder ∧ s'.builder.IsClosed (b.index + 1) := by
  obtain ⟨hb, hturn⟩ := lowerBlock_turn h
  have hs' := hs.goTo hb
  -- the turn as growth from the first block of the code, unless there is nothing to do
  have ⟨e, hclosed⟩ : (s.goTo ⟨b.index + 1⟩).builder.Grows [] s'.builder ∧
    s'.builder.IsClosed s'.builder.current.index := by
    cases hturn with
    | again hclosed heq =>
      rw [heq]
      exact ⟨(Builder.Emits.refl hs'.wf).toGrows, hclosed⟩
    | skipped hopen _ heq =>
      rw [heq]
      exact ⟨Builder.close_grows hs'.wf hopen .unreachable, Builder.close_isClosed hs'.wf
        .unreachable⟩
    | reached _ _ _ hreached =>
      exact lowerReachedBlock_grows (s :=
        { s.goTo ⟨b.index + 1⟩ with block := b, node := none, upsilons := [] }) hs'.wf hreached
  exact ⟨⟨e.after, Nat.lt_of_lt_of_le hs.size e.toExtends.size_le⟩, ⟨e.types, e.grown, e.closed⟩,
    closed_of_grows e hclosed⟩

/-! ## Turns in a row -/

/-- The turn of a block that has its terminator. -/
theorem lowerBlock_again (hb : b.index < env.graph.blocks.size)
    (hclosed : s.builder.IsClosed (b.index + 1)) :
    lowerBlock b env s = .ok ((), s.goTo ⟨b.index + 1⟩) := by
  have hterminated : (liftM Emit.isTerminated : Lower Bool) env (s.goTo ⟨b.index + 1⟩) = .ok (true,
    s.goTo ⟨b.index + 1⟩) := by
    change emit Emit.isTerminated env _ = _
    have : Emit.isTerminated (s.goTo ⟨b.index + 1⟩).builder = .ok (true,
      (s.goTo ⟨b.index + 1⟩).builder) := by
      change (liftM (Fault.ofOption s.builder.terminated[b.index + 1]?) : Emit Bool) _ = _
      rw [hclosed]
      rfl
    simp only [emit, this]
  have hswitch : (liftM (Emit.switchTo ⟨b.index + 1⟩) : Lower Unit) env s = .ok ((),
    s.goTo ⟨b.index + 1⟩) := rfl
  rw [lowerBlock, read_bind, Env.bodyBlock, if_pos hb]
  dsimp only
  rw [bind_of_ok hswitch, bind_of_ok hterminated]
  rfl

theorem forM_lowerBlock_closed {blocks : List BlockIndex} (hs : Underway env s)
    (h : blocks.forM lowerBlock env s = .ok (u, s')) :
    s.builder.Extends s'.builder ∧ ∀ b ∈ blocks, b.index < env.graph.blocks.size ∧
      s'.builder.IsClosed (b.index + 1) := by
  induction blocks generalizing s with
  | nil =>
    cases h
    exact ⟨.refl _, fun _ hb => by cases hb⟩
  | cons b rest ih =>
    rw [forM_cons] at h
    obtain ⟨_, s₁, h₁, h⟩ := bind_ok h
    obtain ⟨hs₁, e₁, hclosed⟩ := lowerBlock_closed hs h₁
    obtain ⟨e, hrest⟩ := ih hs₁ h
    refine ⟨e₁.trans e, fun b' hb' => ?_⟩
    obtain rfl | hb' := List.mem_cons.1 hb'
    · exact ⟨(lowerBlock_turn h₁).1, (e.closed _ hclosed).1⟩
    · exact hrest b' hb'

/-- The turns of a block that has its terminator can be left out. -/
theorem forM_lowerBlock_without {blocks : List BlockIndex} (hs : Underway env s)
    (hclosed : s.builder.IsClosed (b.index + 1)) (h : blocks.forM lowerBlock env s = .ok (u, s')) :
    ∃ p, (blocks.filter fun b' => !(b' == b)).forM lowerBlock env s = .ok ((), s'.goTo p) := by
  induction blocks generalizing s with
  | nil =>
    cases h
    exact ⟨_, rfl⟩
  | cons b' rest ih =>
    rw [forM_cons] at h
    obtain ⟨_, s₁, h₁, h⟩ := bind_ok h
    obtain ⟨hs₁, e₁, -⟩ := lowerBlock_closed hs h₁
    obtain ⟨p, hp⟩ := ih hs₁ (e₁.closed _ hclosed).1 h
    by_cases hbb : b' = b
    · subst hbb
      rw [lowerBlock_again (lowerBlock_turn h₁).1 hclosed] at h₁
      cases h₁
      obtain ⟨q, hq⟩ := forM_lowerBlock_goTo hp s.builder.current
      rw [List.filter_cons_of_neg (by simp)]
      exact ⟨q, hq⟩
    · refine ⟨p, ?_⟩
      rw [List.filter_cons_of_pos (by simpa using hbb), forM_cons, bind_of_ok h₁]
      exact hp

/-- Of the turns of each block the first one is enough. -/
theorem forM_lowerBlock_eraseDups {s s' : State} {u : Unit} (blocks : List BlockIndex)
    (hs : Underway env s) (h : blocks.forM lowerBlock env s = .ok (u, s')) :
    ∃ p, blocks.eraseDups.forM lowerBlock env s = .ok ((), s'.goTo p) := by
  match blocks with
  | [] =>
    cases h
    exact ⟨_, rfl⟩
  | b :: rest =>
    rw [forM_cons] at h
    obtain ⟨_, s₁, h₁, h⟩ := bind_ok h
    obtain ⟨hs₁, -, hclosed⟩ := lowerBlock_closed hs h₁
    obtain ⟨p, hp⟩ := forM_lowerBlock_without hs₁ hclosed h
    obtain ⟨q, hq⟩ := forM_lowerBlock_eraseDups _ hs₁ hp
    exact ⟨q, by rw [List.eraseDups_cons, forM_cons, bind_of_ok h₁]; exact hq⟩
termination_by blocks.length
decreasing_by exact Nat.lt_succ_of_le (List.length_filter_le ..)

theorem Session.step_ok {session after : Session} {act : Lower Unit}
    (h : session.step act = .ok after) :
    act session.env session.state = .ok ((), after.state) ∧ after.env = session.env := by
  unfold Session.step at h
  cases hact : act session.env session.state with
  | error e =>
    rw [hact] at h
    cases h
  | ok r =>
    rw [hact] at h
    cases h
    exact ⟨rfl, rfl⟩

theorem Session.step_of_ok {session : Session} {act : Lower Unit}
    (h : act session.env session.state = .ok ((), s)) :
    session.step act = .ok { session with state := s } := by
  unfold Session.step
  rw [h]
  rfl

/-- Blocks of a graph are lowered one after the other, in any order and as often as one likes. Then
a further turn of one of them is taken, and nothing comes of it: what was lowered, the tables and
the counts are as they were, and only the place of the next instruction differs. Had each block had
its first turn only, the outcome would have been the same. -/
theorem relowered_unchanged {g : Graph} {options : LoweringOptions} {layout : ObjectLayout}
    {session after : Session} {blocks : List BlockIndex}
    (hstart : Session.start g options layout = .ok session)
    (h : session.step (blocks.forM lowerBlock) = .ok after) :
    (∀ b ∈ blocks, ∃ p, after.step (lowerBlock b) = .ok (after.goTo p) ∧
      (after.goTo p).finish = after.finish) ∧
      ∃ p, session.step (blocks.eraseDups.forM lowerBlock) = .ok (after.goTo p) ∧
      (after.goTo p).finish = after.finish := by
  have hs : Underway session.env session.state :=
    ⟨(Settled.start hstart).wf, (Settled.start hstart).size⟩
  obtain ⟨hrun, henv⟩ := Session.step_ok h
  constructor
  · intro b hb
    obtain ⟨hindex, hclosed⟩ := (forM_lowerBlock_closed hs hrun).2 b hb
    rw [← henv] at hindex
    exact ⟨⟨b.index + 1⟩, Session.step_of_ok (lowerBlock_again hindex hclosed), rfl⟩
  · obtain ⟨p, hp⟩ := forM_lowerBlock_eraseDups blocks hs hrun
    refine ⟨p, ?_, rfl⟩
    rw [Session.step_of_ok hp, Session.goTo, henv]

/-- One way the argument is an integer. The other way it is checked to be a boolean and then an
integer, which is a dead end. -/
def forked : Graph where
  name := "forked"
  nodes := #[
    { op := .getStack { operand := .arg 1, slot := .arg 1, format := .jsValue },
      result := .jsValue },
    { op := .branch { taken := ⟨1⟩, notTaken := ⟨2⟩ }, children := [{ node := ⟨0⟩ }] },
    { op := .check, children := [{ node := ⟨0⟩, useKind := .int32 }] },
    { op := .ret, children := [{ node := ⟨0⟩ }] },
    { op := .check, children := [{ node := ⟨0⟩, useKind := .boolean }] },
    { op := .check, children := [{ node := ⟨0⟩, useKind := .int32 }] },
    { op := .ret, children := [{ node := ⟨0⟩ }] }]
  blocks :=
    #[{ index := ⟨0⟩, nodes := #[⟨0⟩, ⟨1⟩] },
      { index := ⟨1⟩, nodes := #[⟨2⟩, ⟨3⟩], predecessors := [⟨0⟩] },
    { index := ⟨2⟩, nodes := #[⟨4⟩, ⟨5⟩, ⟨6⟩], predecessors := [⟨0⟩] }]
  numArguments := 2
  numLocals := 0

/-- Turns of its blocks, the entry and the dead end more than once. -/
theorem relowered_unchanged_forked : ∃ session after, Session.start forked {} {} = .ok session ∧
    session.step ([⟨0⟩, ⟨2⟩, ⟨0⟩, ⟨1⟩, ⟨2⟩].forM lowerBlock) = .ok after ∧
    (∃ p, after.step (lowerBlock ⟨2⟩) = .ok (after.goTo p) ∧ (after.goTo p).finish = after.finish) ∧
    ∃ p, session.step ([⟨0⟩, ⟨2⟩, ⟨1⟩].forM lowerBlock) = .ok (after.goTo p) ∧
    (after.goTo p).finish = after.finish := by
  have hcheck : ((Session.start forked {} {}).toOption.any fun session =>
      (session.step ([⟨0⟩, ⟨2⟩, ⟨0⟩, ⟨1⟩, ⟨2⟩].forM lowerBlock)).toOption.any fun _ =>
        true) = true := by decide +kernel
  obtain ⟨session, hstart, hturns⟩ := ok_of_any hcheck
  obtain ⟨after, hrun, -⟩ := ok_of_any hturns
  obtain ⟨hagain, honce⟩ := relowered_unchanged hstart hrun
  exact ⟨session, after, hstart, hrun, hagain ⟨2⟩ (by simp), honce⟩

end SpecJit.Lowering
