import Mathlib
import SpecJit.Proofs.Exits.Agreement
import SpecJit.Proofs.Lir.PairedRuns
import SpecJit.Proofs.Lir.Run
import SpecJit.Proofs.Lowering.InStep.Run
import SpecJit.Proofs.Lowering.Scoped.Run

/-!
# Exits and their records

The exits of a lowered function and the records of its table go together one to one
(`LoweredFunction.ExitsMatch`). This is what a lowering beside itself keeps (`Matched`), whatever
the graph. Hence the values that a run captures are those that its exit reads, and the exit is
taken: nothing is refused (`exits_match`).

A graph is lowered twice, so that exits restore what is live only, and so that they restore every
variable. Runs of the two functions that end do so in the same way, and after an exit the frames
agree on what is live (`pruned_agrees`). They do so up to the identity of objects: those that an
exit builds for variables that nothing reads come before others in the second function, and a
materializer that numbers its objects tells the difference (`pruned_differs`). There, too, a run of
the second function fails where a phi that is listed in two blocks is captured, which the first one
leaves out.
-/

namespace SpecJit

open Lir Lowering

variable {g : Graph} {options : LoweringOptions} {layout : ObjectLayout} {f f' : LoweredFunction}

/-! ## One record for each exit -/

/-- The exits of a function and the records of its table go together. -/
structure LoweredFunction.ExitsMatch (f : LoweredFunction) (g : Graph) : Prop where
  /-- an exit has a record, which takes as many values as the exit captures -/
  recorded : ∀ i id regs, f.lir.ExitsAt i id regs → (f.exits.exit? id).isSome ∧
    f.exits.stackmapLength? id = some regs.length
  /-- a record has one exit -/
  placed : ∀ id : ExitId, id.index < f.exits.exits.size → ∃! p : Nat × List Reg,
    f.lir.ExitsAt p.1 id p.2
  /-- a record has an entry for each argument and each local -/
  shaped : ∀ id e, f.exits.exit? id = some e → e.values.Shaped g.numArguments g.numLocals
  counted : f.stats.exits = f.exits.exits.size

/-- What is known of the exits of one lowering, whatever its mode. -/
theorem lower_matched (h : g.lower options layout = .ok f) :
    ∃ env b, env.graph = g ∧ b.func = f.lir ∧ Matched env b f.exits ∧
    f.stats.exits = f.exits.exits.size := by
  obtain ⟨session, π, s, s', hstart, htwin, -, rfl, -⟩ :=
    lower_twin options.exitLiveness options.exitLiveness h h
  exact ⟨session.env.inMode options.exitLiveness, s.builder, (Session.start_fresh hstart).graph,
    rfl, htwin.left, htwin.count⟩

theorem exitsMatch_of_lower (h : g.lower options layout = .ok f) : f.ExitsMatch g := by
  obtain ⟨env, b, rfl, hlir, hmatched, hcount⟩ := lower_matched h
  have hat {i : Nat} {id : ExitId} {regs : List Reg} : f.lir.ExitsAt i id regs ↔
    b.ExitsAt i id regs := by
    rw [← hlir]
    exact .rfl
  refine ⟨fun i id regs hi => ?_, fun id hid => ?_, fun id e he => ?_, hcount⟩
  · obtain ⟨e, he, hmeasures, -⟩ := hmatched.recorded (hat.1 hi)
    exact ⟨Option.isSome_of_eq_some he, ExitTable.stackmapLength?_eq he hmeasures⟩
  · obtain ⟨i, regs, hi⟩ := hmatched.placed (Array.getElem?_eq_getElem hid)
    refine ⟨(i, regs), hat.2 hi, ?_⟩
    rintro ⟨j, regs'⟩ hj
    obtain rfl := hmatched.once (hat.1 hj) hi
    obtain ⟨blk, hblk, ht⟩ := hat.1 hj
    obtain ⟨blk', hblk', ht'⟩ := hi
    obtain rfl := Option.some.inj (hblk.symm.trans hblk')
    rw [ht] at ht'
    cases ht'
    rfl
  · obtain ⟨i, regs, hi⟩ := hmatched.placed he
    obtain ⟨e', he', -, hshaped⟩ := hmatched.recorded hi
    rw [he] at he'
    cases he'
    exact hshaped

/-- The exits of a lowered function match their records: each exit terminator has a record that
takes as many values as the terminator captures, each record belongs to one exit terminator and has
an entry for each variable of the frame, and the exits that were counted are these. So when a run
exits, the resolver accepts what it captured, with any frame of the shape of the graph, whatever the
runtime and however objects are built. -/
theorem exits_match (h : g.lower options layout = .ok f) : f.ExitsMatch g ∧
    ∀ {σ τ : Type} (m : Machine σ) (limit : Nat) (memory : Memory) (runtimeState : σ) (id
      : ExitId) (values : List Word),
      m.func = f.lir → (m.run limit memory runtimeState).result = .ok (.exited id values) →
      ∀ (mat : Materializer τ) (frame : Operands Word) (t : τ) (e : DeoptError),
      frame.Shaped g.numArguments g.numLocals →
        (f.exits.resolve mat ⟨id, values.toArray, frame⟩ t).1 ≠ .error (.error e) := by
  refine ⟨exitsMatch_of_lower h,
    fun m limit memory runtimeState id values hm hrun mat frame t e hframe => ?_⟩
  obtain ⟨i, regs, hi, hlength⟩ := Machine.run_exited hrun
  obtain ⟨env, b, rfl, hlir, hmatched, -⟩ := lower_matched h
  rw [hm, ← hlir] at hi
  obtain ⟨record, hrecord, hmeasures, hshaped⟩ := hmatched.recorded hi
  refine ExitTable.resolve_unrefused hrecord ?_ (hframe.1.trans hshaped.1.symm)
    (hframe.2.trans hshaped.2.symm) t e
  rw [List.size_toArray, hlength]
  exact hmeasures

/-- Leaves with an object in local 0 that is yet to be allocated; the argument, an integer, is its
field. -/
def keptObject : Graph where
  name := "keptObject"
  nodes := #[
    { op := .getStack { operand := .arg 1, slot := .arg 1, format := .jsValue },
      result := .jsValue },
    { op := .check, children := [{ node := ⟨0⟩, useKind := .int32 }] },
    { op := .killStack (.arg 1) },
    { op := .movHint (.arg 1), children := [{ node := ⟨0⟩ }] },
    { op := .phantomAllocation .newObject },
    { op := .putHint (.namedProperty ⟨0⟩), children := [{ node := ⟨4⟩ }, { node := ⟨0⟩ }] },
    { op := .movHint (.loc 0), children := [{ node := ⟨4⟩ }] },
    { op := .forceOsrExit, origin := ⟨1⟩ },
    { op := .ret, children := [{ node := ⟨0⟩ }], origin := ⟨1⟩ }]
  blocks := #[{ index := ⟨0⟩, nodes := #[⟨0⟩, ⟨1⟩, ⟨2⟩, ⟨3⟩, ⟨4⟩, ⟨5⟩, ⟨6⟩, ⟨7⟩, ⟨8⟩] }]
  numArguments := 2
  numLocals := 1
  liveness := { entries := [(0, [.arg 1]), (1, [.arg 1, .loc 0])] }

/-- The exit behind the hints captures the argument, which is taken for the variable and for the
field. -/
theorem exits_match_keptObject : ∃ f, keptObject.lower {} {} = .ok f ∧ f.ExitsMatch keptObject ∧
    ∃ m : Machine Simulation.RuntimeState, m.func = f.lir ∧
      (m.run 1000 (Simulation.FrameValues.memory { arguments := [Value.boxInt32 5] }) {}).result =
        .ok (.exited ⟨1⟩ [Value.boxInt32 5]) ∧
      ∀ (mat : Materializer Nat) (frame : Operands Word) (e : DeoptError), frame.Shaped 2 1 →
        (f.exits.resolve mat ⟨⟨1⟩, #[Value.boxInt32 5], frame⟩ 0).1 ≠ .error (.error e) := by
  have hrun : simulated keptObject
    (Simulation.FrameValues.memory { arguments := [Value.boxInt32 5] }) =
      some (.exited ⟨1⟩ [Value.boxInt32 5]) := by decide +kernel
  obtain ⟨f, m, hf, hm, -, hresult⟩ := simulated_ok hrun
  obtain ⟨hmatch, hresolves⟩ := exits_match hf
  exact ⟨f, hf, hmatch, m, hm, hresult, fun mat frame e hframe => hresolves m _ _ _ _ _ hm hresult
    mat frame 0 e hframe⟩

/-! ## Exits that leave out what is dead -/

/-- The frames that two exits from one place are resolved to. The first exit leaves out what is not
live; whatever the second one is resolved to, the first one is resolved as well, and the frames
agree on what is live, up to the identity of objects. -/
structure FramesAgree {τ : Type} (g : Graph) (mat : Materializer τ) (s : τ) (t : ExitTable)
    (c : Captured) (t' : ExitTable) (c' : Captured) : Prop where
  dead : ∀ F s₁, t.resolve mat c s = (.ok F, s₁) → ∀ v, g.isLiveInBytecode v F.origin = false →
    F.operand v = Value.undefined
  live : ∀ F' s', t'.resolve mat c' s = (.ok F', s') → ∃ F s₁, t.resolve mat c s = (.ok F, s₁) ∧
    F.kind = F'.kind ∧
    F.origin = F'.origin ∧ F.profiledValue = F'.profiledValue ∧ ∃ M,
    Corresponds M (t.objects mat c s) (t'.objects mat c' s) ∧
      ∀ v, g.isLiveInBytecode v F.origin = true →
        SameWord M (t.objects mat c s) (t'.objects mat c' s) (F.operand v) (F'.operand v)

/-- Two runs end in the same way: they return the same word, or leave through exits with the same
number that are of the same kind and at the same place, and are resolved to frames that agree. -/
inductive SameEnd (g : Graph) (f f' : LoweredFunction) : Outcome → Outcome → Prop
  | returned (w : Word) : SameEnd g f f' (.returned w) (.returned w)
  | exited {id : ExitId} {ws ws' : List Word} {e e' : OsrExit} : f.exits.exit? id = some e →
    f'.exits.exit? id = some e' →
      e.kind = e'.kind → e.origin = e'.origin →
      (∀ {τ : Type} (mat : Materializer τ) (s : τ) (frame : Operands Word),
        FramesAgree g mat s f.exits ⟨id, ws.toArray, frame⟩ f'.exits ⟨id, ws'.toArray, frame⟩) →
      SameEnd g f f' (.exited id ws) (.exited id ws')
  | unreachable (p p' : BlockId) : SameEnd g f f' (.unreachable p) (.unreachable p')

/-- The graph was validated; its first block has no phis, and each node is in one block at most. -/
def Graph.Orderly (g : Graph) : Prop :=
  (∃ g₀ : Graph, g₀.computePredecessors = .ok g) ∧ g.validate = .ok () ∧ g.phis ⟨0⟩ = .ok [] ∧
    g.ListsOnce

namespace Lowering

/-- What an exit that leaves out dead variables is resolved to. -/
theorem Matched.frame_dead {τ : Type} {env : Env} {b : Builder} {t : ExitTable}
    {mat : Materializer τ} {c : Captured} {F : ResolvedFrame} {s s₁ : τ} {v : Operand}
    (h : Matched env b t) (hpruned : env.options.exitLiveness = .pruned)
    (hx : t.resolve mat c s = (.ok F, s₁)) (hv : env.graph.isLiveInBytecode v F.origin = false) :
    F.operand v = Value.undefined := by
  obtain ⟨e, cells, he, hF⟩ := ExitTable.resolve_restores hx
  rw [hF.origin] at hv
  cases hx : e.values.get? v with
  | none => exact hF.outside hx
  | some x =>
    obtain ⟨w, hw, hboxed⟩ := hF.operands v x hx
    obtain rfl := h.pruned hpruned he hv hx
    cases hboxed
    rw [ResolvedFrame.operand, hw]
    rfl

/-- Runs of machines that are in step end in the same way. -/
theorem Twin.sameEnd {σ : Type} {E : Setting} {π : Pairing} {s s' : State} {m m' : Machine σ}
    {o o' : Outcome} (h : Twin E π s s') (hleft : E.left = .pruned) (hm : m.func = s.builder.func)
    (hm' : m'.func = s'.builder.func) (hf : f.exits = s.exits) (hf' : f'.exits = s'.exits)
    (ho : o.Pairs π m m' o') : SameEnd E.env.graph f f' o o' := by
  cases ho with
  | returned w => exact .returned w
  | unreachable p p' => exact .unreachable p p'
  | @exited id i i' regs regs' ws ws' hi hi' hlength hlength' hcaptured =>
    rw [hm] at hi
    rw [hm'] at hi'
    obtain ⟨e, he, hmeasures, hshaped⟩ := h.left.recorded hi
    obtain ⟨e', he', -, hshaped'⟩ := h.right.recorded hi'
    have htwins := h.exits hi hi' he he'
    have horigin : e.origin = e'.origin := htwins.origin
    refine .exited (hf ▸ he) (hf' ▸ he') htwins.kind horigin fun mat s₀ frame =>
      ⟨fun F s₁ hx v hv => ?_, fun F' s₁ hx => ?_⟩
    · rw [hf] at hx
      exact Matched.frame_dead h.left hleft hx hv
    · rw [hf'] at hx ⊢
      rw [hf]
      have hc : Captured.Alike (π.Captured regs regs') ⟨id, ws.toArray, frame⟩ ⟨id, ws'.toArray,
        frame⟩ :=
        ⟨rfl, fun hk => by simpa using hcaptured _ _ hk⟩
      have hsize : ws.toArray.size = regs.length := by rw [List.size_toArray, hlength]
      have hdead (v : Operand) (x : ExitValue) (hv : ¬ E.env.graph.isLiveInBytecode v
        e.origin = true)
          (hx : e.values.get? v = some x) : x = .dead :=
            h.left.pruned hleft he (by simpa using hv) hx
      obtain ⟨F, s₂, log, hresolve, hkind, hF, hprofiled, M, hM, hlive⟩ :=
        htwins.resolve mat (s := s₀) hc he he' (hsize ▸ hmeasures) hshaped hshaped' hdead
          (ExitTable.resolve_logged.2 ⟨hx, rfl⟩)
      obtain ⟨hplain, rfl⟩ := ExitTable.resolve_logged.1 hresolve
      obtain ⟨e₁, cells, he₁, hrestores⟩ := ExitTable.resolve_restores hplain
      obtain rfl : e = e₁ := Option.some.inj (he.symm.trans he₁)
      exact ⟨F, s₂, hplain, hkind, hF, hprofiled, M, hM, fun v hv => hlive v (hrestores.origin ▸
        hv)⟩

end Lowering

/-- A run of an orderly graph reads no register that has no value. -/
theorem Graph.Orderly.not_lacks {σ : Type} {m : Machine σ} {memory memory₁ : Memory}
    {state state₁ : σ} (hg : g.Orderly) (h : g.lower options layout = .ok f) (hm : m.func = f.lir) :
    ¬ m.Lacks memory state memory₁ state₁ := by
  obtain ⟨⟨g₀, hp⟩, hvalid, hentry, honce⟩ := hg
  rintro ⟨limit, r, hrun⟩
  have hends := lowered_run_ends hp hvalid hentry honce h m hm limit memory state
  simp [hrun] at hends

/-- Leaving out what is dead changes nothing that is live. The graph is lowered so that exits leave
out dead variables (`f`) and so that they keep them (`f'`). Where a run of one function ends, a run
of the other one, in the same surroundings, ends in the same way and leaves the same memory and
runtime state behind. Only a graph that is not orderly may have an exit which captures a register
that has no value, and then the run fails. -/
theorem pruned_agrees {σ : Type}
    (h : g.lower { options with exitLiveness := .pruned } layout = .ok f)
    (h' : g.lower { options with exitLiveness := .conservative } layout = .ok f')
    (context frame : Word) (runtime : Runtime σ) (memory memory₁ : Memory) (state state₁ : σ) :
    (∀ o, Machine.EndsIn ⟨f.lir, context, frame, runtime⟩ memory state o memory₁ state₁ →
      (∃ o', Machine.EndsIn ⟨f'.lir, context, frame, runtime⟩ memory state o' memory₁ state₁ ∧
        SameEnd g f f' o o') ∨
        ¬ g.Orderly ∧ o.IsExit ∧ Machine.Lacks ⟨f'.lir, context, frame, runtime⟩ memory state
          memory₁ state₁) ∧
    (∀ o', Machine.EndsIn ⟨f'.lir, context, frame, runtime⟩ memory state o' memory₁ state₁ →
      (∃ o, Machine.EndsIn ⟨f.lir, context, frame, runtime⟩ memory state o memory₁ state₁ ∧
        SameEnd g f f' o o') ∨
        ¬ g.Orderly ∧ o'.IsExit ∧ Machine.Lacks ⟨f.lir, context, frame, runtime⟩ memory state
          memory₁ state₁) := by
  obtain ⟨session, π, s, s', hstart, htwin, hentry, rfl, rfl⟩ :=
    lower_twin .pruned .conservative h h'
  obtain rfl : session.env.graph = g := (Session.start_fresh hstart).graph
  have hpairs : Machine.Pairs π (⟨s.builder.func, context, frame, runtime⟩ : Machine σ)
    ⟨s'.builder.func, context, frame, runtime⟩ :=
    htwin.builder.toAgree.machines hentry rfl rfl rfl rfl rfl
  refine ⟨fun o ho => ?_, fun o' ho' => ?_⟩
  · rcases hpairs.follows ho with ⟨o', ho', hsame⟩ | ⟨hexit, hlacks⟩
    · exact .inl ⟨o', ho', htwin.sameEnd rfl rfl rfl rfl rfl hsame⟩
    · exact .inr ⟨fun hg => hg.not_lacks h' rfl hlacks, hexit, hlacks⟩
  · rcases hpairs.flip.follows ho' with ⟨o, ho, hsame⟩ | ⟨hexit, hlacks⟩
    · exact .inl ⟨o, ho, htwin.sameEnd rfl rfl rfl rfl rfl (Outcome.Pairs.flip hsame)⟩
    · exact .inr ⟨fun hg => hg.not_lacks h rfl hlacks, hexit, hlacks⟩

/-- Leaves with an object in each local, of which only the second one is live. -/
def twoObjects : Graph where
  name := "twoObjects"
  nodes := #[
    { op := .phantomAllocation .newObject },
    { op := .movHint (.loc 0), children := [{ node := ⟨0⟩ }] },
    { op := .phantomAllocation .newObject },
    { op := .movHint (.loc 1), children := [{ node := ⟨2⟩ }] },
    { op := .forceOsrExit, origin := ⟨1⟩ },
    { op := .jsConstant (.int32 0), result := .jsValue, origin := ⟨1⟩ },
    { op := .ret, children := [{ node := ⟨5⟩ }], origin := ⟨1⟩ }]
  blocks := #[{ index := ⟨0⟩, nodes := #[⟨0⟩, ⟨1⟩, ⟨2⟩, ⟨3⟩, ⟨4⟩, ⟨5⟩, ⟨6⟩] }]
  numArguments := 1
  numLocals := 2
  liveness := { entries := [(0, []), (1, [.loc 1])] }

/-- Both functions leave `twoObjects` through the same exit. -/
theorem pruned_agrees_twoObjects : ∃ f f', twoObjects.lower { exitLiveness := .pruned } {} = .ok f ∧
    twoObjects.lower { exitLiveness := .conservative } {} = .ok f' ∧ twoObjects.Orderly ∧
    ∃ (m : Machine Simulation.RuntimeState) (memory₁ : Memory) (state₁
      : Simulation.RuntimeState) (o' : Outcome), m.func = f.lir ∧
      m.EndsIn {} {} (.exited ⟨0⟩ []) memory₁ state₁ ∧ Machine.EndsIn { m with func := f'.lir } {}
        {} o' memory₁ state₁ ∧
      SameEnd twoObjects f f' (.exited ⟨0⟩ []) o' := by
  have horderly : twoObjects.Orderly :=
    ⟨⟨twoObjects, Graph.computePredecessors_eq (by decide +kernel) (by decide +kernel)⟩,
      by decide +kernel, by decide +kernel,
      by decide +kernel⟩
  have hok : (twoObjects.lower { exitLiveness := .conservative } {}).isOk = true := by
    decide +kernel
  have hrun : simulated twoObjects {} = some (.exited ⟨0⟩ []) := by decide +kernel
  obtain ⟨f, m, hf, hm, -, hresult⟩ := simulated_ok hrun
  cases hf' : twoObjects.lower { exitLiveness := .conservative } {} with
  | error e =>
    rw [hf'] at hok
    cases hok
  | ok f' =>
    have hends : m.EndsIn {} {} (.exited ⟨0⟩ []) (m.run 1000 {} {}).memory
      (m.run 1000 {} {}).runtimeState :=
      ⟨1000, by rw [← hresult]⟩
    obtain ⟨func, context, frame, runtime⟩ := m
    cases hm
    obtain ⟨o', ho', hsame⟩ :=
      ((@pruned_agrees twoObjects {} {} f f' _ hf hf' context frame runtime {} _ {} _).1 _
        hends).resolve_right
      fun hnot => hnot.1 horderly
    exact ⟨f, f', hf, rfl, horderly, ⟨f.lir, context, frame, runtime⟩, _, _, o', rfl, hends, ho',
      hsame⟩

/-! ## Where the modes differ -/

/-- Builds each object at an address of its own. -/
def numbered : Materializer Nat where
  build _ n := (0x10000 * UInt64.ofNat (n + 1), n + 1)

/-- The result of a simulated run of a graph that was lowered in the given mode. -/
def resultIn (mode : ExitLiveness) (g : Graph) (memory : Memory) :
    Option (Except EvalFailure Outcome) :=
  (g.lower { exitLiveness := mode } {}).toOption.map fun f =>
    (Simulation.run f.lir {} 1000 memory).result

/-- The exits of a graph that was lowered in the given mode. -/
def exitsIn (mode : ExitLiveness) (g : Graph) : Option ExitTable :=
  (g.lower { exitLiveness := mode } {}).toOption.map (·.exits)

/-- The value of a variable in the frame that an exit without captured values is resolved to. -/
def operandIn (mode : ExitLiveness) (g : Graph) (id : ExitId) (frame : Operands Word) (v : Operand)
    : Option Word := do
  let t ← exitsIn mode g
  let F ← (t.resolve numbered ⟨id, #[], frame⟩ 0).1.toOption
  return F.operand v

/-- A phi is listed in two blocks; one of them leaves with the phi in a local that is not live. -/
def sharedPhi : Graph where
  name := "sharedPhi"
  nodes := #[
    { op := .getStack { operand := .arg 1, slot := .arg 1, format := .jsValue },
      result := .jsValue },
    { op := .upsilon ⟨3⟩, children := [{ node := ⟨0⟩ }] },
    { op := .branch { taken := ⟨1⟩, notTaken := ⟨2⟩ },
      children := [{ node := ⟨0⟩, useKind := .boolean }] },
    { op := .phi, result := .jsValue },
    { op := .movHint (.loc 0), children := [{ node := ⟨3⟩ }] },
    { op := .forceOsrExit, origin := ⟨1⟩ },
    { op := .ret, children := [{ node := ⟨0⟩ }], origin := ⟨1⟩ },
    { op := .ret, children := [{ node := ⟨0⟩ }], origin := ⟨1⟩ }]
  blocks := #[{ index := ⟨0⟩, nodes := #[⟨0⟩, ⟨1⟩, ⟨2⟩] },
    { index := ⟨1⟩, nodes := #[⟨3⟩, ⟨4⟩, ⟨5⟩, ⟨6⟩], predecessors := [⟨0⟩] },
    { index := ⟨2⟩, nodes := #[⟨3⟩, ⟨7⟩], predecessors := [⟨0⟩] }]
  numArguments := 2
  numLocals := 1
  liveness := { entries := [(0, [.arg 1]), (1, [])] }

/-- The object in the second local is built first if the one in the first local is left out, and
gets another address. And the phi of two blocks has no value where the second function captures it;
the first one leaves it out and exits. -/
theorem pruned_differs :
    (resultIn .pruned twoObjects {} = some (.ok (.exited ⟨0⟩ [])) ∧ resultIn .conservative
      twoObjects {} = some (.ok (.exited ⟨0⟩ [])) ∧
      twoObjects.isLiveInBytecode (.loc 1) ⟨1⟩ = true ∧
      operandIn .pruned twoObjects ⟨0⟩ (.replicate 1 2 0) (.loc 1) = some 0x10000 ∧
      operandIn .conservative twoObjects ⟨0⟩ (.replicate 1 2 0) (.loc 1) = some 0x20000) ∧
    (sharedPhi.validate = .ok () ∧
      resultIn .pruned sharedPhi (Simulation.FrameValues.memory { arguments := [Value.trueWord] })
        = some (.ok (.exited ⟨1⟩ [])) ∧
      resultIn .conservative sharedPhi
        (Simulation.FrameValues.memory { arguments := [Value.trueWord] }) =
        some (.error (.error (.undefined ⟨3⟩)))) := by
  have hpruned : exitsIn .pruned twoObjects = some
      { exits := #[
          { kind := .inadequateCoverage, origin := ⟨1⟩, profileValue := none,
            values := ⟨#[.dead], #[.dead, .materialize ⟨0⟩]⟩ }],
        materializations := #[{ kind := .newObject, origin := ⟨0⟩, properties := [] }] } :=
          by decide +kernel
  have hconservative : exitsIn .conservative twoObjects = some
      { exits := #[
          { kind := .inadequateCoverage, origin := ⟨1⟩, profileValue := none,
            values := ⟨#[.inStack (.arg 0) .jsValue], #[.materialize ⟨0⟩, .materialize ⟨1⟩]⟩ }],
        materializations := #[{ kind := .newObject, origin := ⟨0⟩, properties := [] },
          { kind := .newObject, origin := ⟨0⟩, properties := [] }] } := by decide +kernel
  refine ⟨⟨by decide +kernel, by decide +kernel, by decide +kernel, ?_, ?_⟩,
    by decide +kernel, by decide +kernel, by decide +kernel⟩
  · rw [operandIn, hpruned]
    cbv
  · rw [operandIn, hconservative]
    cbv

end SpecJit
