import SpecJit.Proofs.Exits.Taking
import SpecJit.Proofs.Lowering.Exits.Record

/-!
# Leaving with what the registers hold

An exit takes a node that is no allocation from a constant, from the first of the forms in which the
node is held, or redoes a sum; `taken?` is the word that it finds. A block that is ended by leaving
leaves with the words that its record reads (`terminate_exits`), these suffice for its exit
(`Records.sufficient`), and what the exit restores for the node is the word that was found
(`taken?_of_restores`).
-/

namespace SpecJit

open Lir

/-- The table has the records of another one at the same places. -/
structure ExitTable.Extends (t t' : ExitTable) : Prop where
  exits : ∀ x e, t.exit? x = some e → t'.exit? x = some e
  materializations : ∀ d record, t.materialization? d = some record →
    t'.materialization? d = some record

namespace Lir

variable {σ : Type} {m : Machine σ} {b b' : Builder} {c c' : Config σ}

/-- The word in a register. -/
def Config.word? (c : Config σ) (r : Reg) : Option Word := c.registers[r.index]?.join

theorem Config.Has.word? {r : Reg} {ty : Ty} {w : Word} (h : c.Has b r ty w) :
    c.word? r = some w := by
  rw [Config.word?, h.value]
  rfl

/-- A run that ends does so where it cannot go on. -/
theorem Machine.done_of_steps {n limit left : Nat} {o : Outcome} (h : m.Steps n c c')
    (hstop : ∀ c'', m.step c' ≠ .ok (.running c'')) (hrun : (m.runFrom limit left c).result = .ok o)
    : m.step c' = .ok (.done o) := by
  induction h generalizing left with
  | refl c =>
    obtain ⟨n, -, c₁, hsteps, hdone⟩ := Machine.runFrom_result_iff.1 hrun
    cases hsteps with
    | refl => exact hdone
    | next hs _ => exact absurd hs (hstop _)
  | @next _ c₀ c₁ _ hs _ ih =>
    cases left with
    | zero => cases hrun
    | succ left =>
      rw [Machine.runFrom, hs] at hrun
      exact ih hstop hrun

/-- Putting a constant aside is one instruction, where there is a block for it. -/
theorem Builder.define_putAside (hw : b.WellFormed) (ho : b.IsOpen b.current.index) (n : Int64) :
    Emit.define .i32 (.iconst .i32 n) b = .ok (⟨b.func.types.size⟩, b.putAside n) := by
  obtain ⟨r, b', h, -⟩ := Emit.define_succeeds hw .i32 (.iconst .i32 n)
  obtain ⟨b₁, h₁, rfl, rfl⟩ := Emit.define_ok h
  obtain rfl := Emit.ensureOpen_of_open h₁ ho
  exact h

theorem Builder.SetsAside.emits {K : List (Reg × Int64)} (h : b.SetsAside K b') (hw : b.WellFormed)
    (ho : b.IsOpen b.current.index) :
    b.Emits [] b' ∧ b'.IsOpen b'.current.index := by
  induction h with
  | refl b => exact ⟨.refl hw, ho⟩
  | @step b b₁ b₂ n K hopened _ ih =>
    obtain rfl : b₁ = b := by
      cases hopened with
      | same => rfl
      | fresh hclosed => exact absurd hclosed ho.not_closed
    have e₁ := (inferInstance : (Emit.define .i32 (.iconst .i32 n)).Tidy).emits _ _ _ hw
      (Builder.define_putAside hw ho n)
    obtain ⟨e₂, ho₂⟩ := ih e₁.after ho
    exact ⟨e₁.trans e₂, ho₂⟩

/-- The code that puts constants aside leads behind them, with the constants in their registers. -/
theorem Machine.setsAside_runs {K : List (Reg × Int64)} (h : b.SetsAside K b')
    (hm : b'.Completes m.func) (hc : m.At b c) :
    m.Runs b c b' fun c' => ∀ p ∈ K, c'.Has b' p.1 .i32 (Ty.i32.normalize p.2.toUInt64) := by
  induction h generalizing c with
  | refl b => exact .refl hc nofun
  | @step b b₁ b₂ n K hopened hrest ih =>
    obtain rfl : b₁ = b := by
      cases hopened with
      | same => rfl
      | fresh hclosed => exact absurd hclosed hc.isOpen.not_closed
    have hdefine := Builder.define_putAside hc.wf hc.isOpen n
    have e₁ := (inferInstance : (Emit.define .i32 (.iconst .i32 n)).Tidy).emits _ _ _ hc.wf hdefine
    obtain ⟨e₂, -⟩ := hrest.emits e₁.after hc.isOpen
    refine (Emit.iconst_yields n (.refl c _) hc hdefine (e₂.toExtends.completes hm)).bind
      e₁.toExtends e₂.toGrows fun c₁ hc₁ _ hn => ?_
    obtain ⟨c₂, hgoes, hat, hkeeps, hK⟩ := ih hm hc₁
    exact ⟨c₂, hgoes, hat, hkeeps, List.forall_mem_cons.2 ⟨hn.keep e₂.toExtends hkeeps, hK⟩⟩

end Lir

/-- A word that a register with a node in that form can hold. -/
def Form.Fits : Form → Word → Prop
  | .int32, u => ∃ n, u = ofInt32 n
  | .boolean, u => ∃ t, u = ofBool t
  | _, _ => True

namespace Lowering

variable {σ : Type} {m m' : Machine σ} {c c' c₁ d : Config σ} {env : Env} {s s' s₁ s₂ : State}
  {id n : NodeId} {node : Node} {v : Operand} {x : ExitValue} {w : Word} {r : Reg} {e : Edge}
  {u : Unit}

/-! ## The words that are found -/

/-- The registers that hold the node have words of their forms. -/
def HasWords (env : Env) (s : State) (c : Config σ) (id : NodeId) : Prop :=
  ∀ form r, heldIn env s id form = some r → ∃ u, form.Fits u ∧ c.Has s.builder r form.type u

/-- The operand of a sum that an exit redoes. -/
def Term.int32? (c : Config σ) : Term → Option Int32
  | .register r => (c.word? r).map low32
  | .constant n => some n

/-- The boxed word of a constant, a register or a sum. -/
def ExitSource.word? (c : Config σ) : ExitSource → Option Word
  | .constant w => some w
  | .register r format => (c.word? r).map format.rebox
  | .sum op left right => do return Value.boxInt32 (op.apply32 (← left.int32? c) (← right.int32? c))
  | .nowhere | .slot _ _ | .object _ => none

/-- The word that an exit restores for a node. -/
def taken? (env : Env) (s : State) (c : Config σ) (id : NodeId) (node : Node) : Option Word :=
  (nodeSource env s id node).word? c

/-! ## What an exit restores -/

theorem HasWords.keep (h : HasWords env s c n) {form : Form} (hr : heldIn env s n form = some r)
    (hk : c.Keeps s.builder c₁) :
    ∃ u, form.Fits u ∧ c.word? r = some u ∧ c₁.word? r = some u := by
  obtain ⟨u, hfits, hhas⟩ := h form r hr
  exact ⟨u, hfits, hhas.word?, (hhas.keep (.refl _) hk).word?⟩

/-- How an exit redoes a sum or a difference. -/
def recoveryOp : Op → RecoveryOp
  | .arith .add _ => .add
  | _ => .sub

/-- Where a node is found that is no allocation. -/
inductive Found (env : Env) (s : State) (n : NodeId) (node : Node) : ExitSource → Prop
  | nowhere : Found env s n node .nowhere
  | constant {w : Word} : node.op.constantWord? = some w → Found env s n node (.constant w)
  | register {f : Form × ValueFormat} {r : Reg} {format : ValueFormat} : f ∈ capturedForms →
    format.rebox = f.2.rebox →
      heldIn env s n f.1 = some r → Found env s n node (.register r format)
  | sum {op : RecoveryOp} {e₁ e₂ : Edge} {left right : Term} : node.op.constantWord? = none →
    capturedIn env s n = none →
      n ∈ env.exitOnly → op = recoveryOp node.op → node.children[0]? = some e₁ →
      node.children[1]? = some e₂ → termOf env s e₁ = some left → termOf env s e₂ = some right →
      Found env s n node (.sum op left right)

theorem nodeSource_found (hplain : ∀ kind, node.op ≠ .phantomAllocation kind) :
    Found env s n node (nodeSource env s n node) := by
  unfold nodeSource
  split
  · next kind hkind => exact absurd hkind (hplain kind)
  split
  · next w hw => exact .constant hw
  next hconst =>
  split
  · next r format hr =>
    obtain ⟨f, hmem, hf⟩ := List.exists_of_findSome?_eq_some hr
    obtain ⟨r', hr', he⟩ := Option.map_eq_some_iff.1 hf
    cases he
    refine .register hmem ?_ hr'
    -- a cell is boxed as it is
    split
    · next hcell =>
      rw [Bool.and_eq_true, beq_iff_eq] at hcell
      rw [hcell.1]
      rfl
    · rfl
  next hnone =>
  unfold sumOf
  split
  · next honly =>
    split
    · next left right hleft hright =>
      obtain ⟨e₁, he₁, hleft⟩ := Option.bind_eq_some_iff.1 hleft
      obtain ⟨e₂, he₂, hright⟩ := Option.bind_eq_some_iff.1 hright
      exact .sum hconst hnone (List.contains_iff_mem.1 honly) rfl he₁ he₂ hleft hright
    · exact .nowhere
  · exact .nowhere

theorem heldIn_of_termOf (h : termOf env s e = some (.register r)) :
    heldIn env s e.node .int32 = some r := by
  rw [termOf] at h
  split at h
  · cases h
    assumption
  · obtain ⟨k, -, hk⟩ := Option.map_eq_some_iff.1 h
    cases hk

/-- An operand that was captured. -/
theorem int32?_of_in {K : List (Reg × Int64)} {l : Term} (h : l.In K r)
    (hl : termOf env s e = some l) (he : HasWords env s c e.node) (hk : c.Keeps s.builder c₁)
    {b : Builder} (hK : ∀ p ∈ K, c₁.Has b p.1 .i32 (Ty.i32.normalize p.2.toUInt64)) {u : Word}
    (hu : c₁.word? r = some u) : l.int32? c = some (low32 u) := by
  cases h with
  | register r =>
    obtain ⟨u', -, hbefore, hafter⟩ := he.keep (heldIn_of_termOf hl) hk
    obtain rfl := Option.some.inj (hu.symm.trans hafter)
    rw [Term.int32?, hbefore]
    rfl
  | @constant k _ hmem =>
    have hhas := (hK _ hmem).word?
    rw [normalize_ofInt, Int32.ofInt_toInt] at hhas
    obtain rfl := Option.some.inj (hu.symm.trans hhas)
    rw [low32_ofInt32]
    rfl

/-- The machine after the constants of an exit, and the words that it captures there. -/
structure Capturing.At (s : State) (c : Config σ) (K : List (Reg × Int64)) (cap : Capture)
    (s₁ : State) (c₁ : Config σ) (ws : List Word) :
    Prop where
  keeps : c.Keeps s.builder c₁
  aside : ∀ p ∈ K, c₁.Has s₁.builder p.1 .i32 (Ty.i32.normalize p.2.toUInt64)
  captured : List.Forall₂ (fun r w => c₁.word? r = some w) cap.regs.toList ws

theorem Capturing.At.word? {K : List (Reg × Int64)} {cap : Capture} {ws : List Word}
    (h : Capturing.At s c K cap s₁ c₁ ws) {i : Nat} {u : Word} (hr : cap.regs[i]? = some r)
    (hu : ws.toArray[i]? = some u) : c₁.word? r = some u := by
  rw [← Array.getElem?_toList] at hr
  rw [List.getElem?_toArray] at hu
  obtain ⟨hi, rfl⟩ := List.getElem?_eq_some_iff.1 hr
  obtain ⟨hi', rfl⟩ := List.getElem?_eq_some_iff.1 hu
  exact h.captured.get hi hi'

/-- An exit restores the word that is found for the node. -/
theorem taken?_of_restores {K : List (Reg × Int64)} {cap : Capture} {ws : List Word}
    {frame : SpecJit.Operands Word} {x : ExitId} {y : ExitValue}
    {log : List (MaterializedFields × Word)} (h : Capturing.At s c K cap s₁ c₁ ws)
    (hplain : ∀ kind, node.op ≠ .phantomAllocation kind) (hn : HasWords env s c n)
    (hchildren : ∀ e ∈ node.children, HasWords env s c e.node)
    (hsource : nodeSource env s n node ≠ .nowhere) (hy : Realizes K cap (nodeSource env s n node) y)
    (hw : y.Restores ⟨x, ws.toArray, frame⟩ log w) : taken? env s c n node = some w := by
  have hfound : Found env s n node (nodeSource env s n node) := nodeSource_found hplain
  rw [taken?]
  generalize nodeSource env s n node = src at *
  cases hfound with
  | nowhere => exact absurd rfl hsource
  | constant =>
    cases hy
    cases hw
    rfl
  | register _ _ hr =>
    cases hy with
    | register hi =>
    cases hw with
    | argument _ hraw =>
    obtain ⟨u, -, hbefore, hafter⟩ := hn.keep hr h.keeps
    obtain rfl := Option.some.inj ((h.word? hi hraw).symm.trans hafter)
    rw [ExitSource.word?, hbefore]
    rfl
  | @sum op e₁ e₂ left right _ _ _ _ he₁ he₂ hleft hright =>
    cases hy with
    | sum hl hr hi hj =>
    cases hw with
    | recovery hu hv hraw =>
    have hleft := int32?_of_in hl hleft (hchildren _ (List.mem_of_getElem? he₁)) h.keeps h.aside
      (h.word? hi hu)
    have hright := int32?_of_in hr hright (hchildren _ (List.mem_of_getElem? he₂)) h.keeps h.aside
      (h.word? hj hv)
    rename_i l r raw
    have hrebox : (op.recover? l r .int32).map ValueFormat.int32.rebox = _ :=
      RecoveryOp.recover?_int32 l r
    rw [hraw] at hrebox
    rw [ExitSource.word?, hleft, hright, Option.some.inj hrebox]
    rfl

/-! ## What was captured suffices -/

theorem Realizes.restorable {K : List (Reg × Int64)} {cap : Capture} {src : ExitSource}
    {y : ExitValue} {t : ExitTable} {k : Captured} (h : Realizes K cap src y)
    (hsize : cap.regs.size = k.stackmap.size) (hbuilt : ∀ p ∈ cap.built, t.Has p.2)
    (hslot : ∀ slot format, src = .slot slot format → (k.frame.get? slot).isSome = true) :
    y.Restorable t k := by
  have hlt {i : Nat} {r : Reg} (hi : cap.regs[i]? = some r) : i < k.stackmap.size :=
    hsize ▸ (Array.getElem?_eq_some_iff.1 hi).1
  cases h with
  | nowhere | constant => trivial
  | slot v format => exact hslot v format rfl
  | object hmem => exact hbuilt _ hmem
  | register hi => exact hlt hi
  | sum _ _ hi hj => exact ⟨hlt hi, hlt hj, .inl rfl⟩

/-- The slots in which values are available are in the frame. -/
structure SlotsIn (a : AvailabilityMap) (frame : SpecJit.Operands Word) : Prop where
  operands : ∀ v f, (a.get v).liveFlush? = some f → (frame.get? f.slot).isSome = true
  fields : ∀ p ∈ a.heap, ∀ f, p.2.liveFlush? = some f → (frame.get? f.slot).isSome = true

theorem slot_of_sourceOf {a : Availability} {slot : Operand} {format : ValueFormat}
    (h : sourceOf env s a = .slot slot format) :
    ∃ f, a.liveFlush? = some f ∧ f.slot = slot := by
  unfold sourceOf at h
  split at h
  · next slot' format' hflush =>
    obtain ⟨f, hf, hmap⟩ := Option.bind_eq_some_iff.1 hflush
    obtain ⟨_, -, he⟩ := Option.map_eq_some_iff.1 hmap
    cases he
    cases h
    exact ⟨f, hf, rfl⟩
  split at h
  · cases h
  split at h
  · cases h
  next id _ _ node _ =>
  by_cases hplain : ∀ kind, node.op ≠ .phantomAllocation kind
  · have hfound : Found env s id node (nodeSource env s id node) := nodeSource_found hplain
    rw [h] at hfound
    cases hfound
  · push Not at hplain
    obtain ⟨kind, hkind⟩ := hplain
    simp only [nodeSource, hkind] at h
    cases h

theorem slot_of_variableSource {a : Availability} {slot : Operand} {format : ValueFormat}
    (h : variableSource env s v a = .slot slot format) :
    ∃ f, a.liveFlush? = some f ∧ f.slot = slot := by
  unfold variableSource at h
  split at h
  · cases h
  · exact slot_of_sourceOf h

/-- What is captured for an exit suffices for it. -/
theorem Records.sufficient {kind : ExitKind} {K : List (Reg × Int64)} {cap : Capture} {e : OsrExit}
    {t : ExitTable} {k : Captured}
    (h : Records env kind none s K cap e s₁)
    (ht : ∀ d record, s₁.exits.materialization? d = some record →
      t.materialization? d = some record)
    (hsize : cap.regs.size = k.stackmap.size)
    (hframe : k.frame.Shaped env.graph.numArguments env.graph.numLocals)
    (hslots : SlotsIn s.availability k.frame) : t.Sufficient k e := by
  obtain ⟨xs, hcollects, -⟩ := h.collects
  have hdescribed {id : NodeId} {d : MaterializationId} (hd : (id, d) ∈ cap.built) : Described env s
    K cap s₁.exits id d :=
    ((hcollects.described _ hd).resolve_left nofun).2
  have hbuilt : ∀ p ∈ cap.built, t.Has p.2 := fun p hp => by
    obtain ⟨_, _, record, -, -, hrecord, -⟩ := hdescribed hp
    exact ExitTable.has_iff.2 ⟨record, ht _ _ hrecord⟩
  -- the fields of a record come from where they are available
  have hfields {id : NodeId} {d : MaterializationId} {record : Materialization}
    (hd : (id, d) ∈ cap.built)
      (hrecord : t.materialization? d = some record) {p : PromotedLocation × ExitValue}
        (hp : p ∈ record.properties) :
      ∃ f ∈ s.availability.fieldsOf id, Realizes K cap (sourceOf env s f.2) p.2 := by
    obtain ⟨_, _, record', -, -, hrecord', -, -, hproperties⟩ := hdescribed hd
    obtain rfl := Option.some.inj (hrecord.symm.trans (ht _ _ hrecord'))
    obtain ⟨f, hf, -, hrealizes⟩ := exists_of_forall₂ hproperties hp
    exact ⟨f, hf, hrealizes⟩
  have hobject {src : ExitSource} {y : ExitValue} {d : MaterializationId}
    (hy : Realizes K cap src y) (hd : y.materialization? = some d) :
      ∃ id, (id, d) ∈ cap.built := by
    cases hy with
    | object hmem => exact ⟨_, Option.some.inj hd ▸ hmem⟩
    | _ => cases hd
  have hreached {d : MaterializationId} (hd : t.Reached e d) : ∃ id, (id, d) ∈ cap.built := by
    obtain ⟨root, hroot, hreach⟩ := hd
    induction hreach with
    | refl =>
      obtain ⟨⟨v, y⟩, hy, hd⟩ := List.mem_filterMap.1 hroot
      exact hobject (h.values v y (Operands.mem_toList.1 hy)) hd
    | tail _ hneeds ih =>
      obtain ⟨id, hid⟩ := ih
      obtain ⟨record, hrecord, hd⟩ := hneeds
      obtain ⟨p, hp, hd⟩ := List.mem_filterMap.1 hd
      obtain ⟨f, -, hrealizes⟩ := hfields hid hrecord hp
      exact hobject hrealizes hd
  refine ⟨⟨hframe.1.trans h.shape.1.symm, hframe.2.trans h.shape.2.symm⟩, fun i hi => ?_,
    fun v y hy => ?_, fun d record hd hrecord p hp => ?_⟩
  · have hprofiled := h.profiled
    rw [hi] at hprofiled
    exact hprofiled.elim
  · refine (h.values v y hy).restorable hsize hbuilt fun slot format hsrc => ?_
    obtain ⟨f, hf, rfl⟩ := slot_of_variableSource hsrc
    exact hslots.operands v f hf
  · obtain ⟨id, hid⟩ := hreached hd
    obtain ⟨f, hf, hrealizes⟩ := hfields hid hrecord hp
    refine hrealizes.restorable hsize hbuilt fun slot format hsrc => ?_
    obtain ⟨g, hg, rfl⟩ := slot_of_sourceOf hsrc
    obtain ⟨q, hq, rfl⟩ := List.mem_map.1 hf
    exact hslots.fields q (List.mem_of_mem_filter hq) g hg

/-! ## Leaving -/

theorem word?_of_read {r : Reg} {w : Word} (h : c.read r = .ok w) : c.word? r = some w := by
  rw [Config.read] at h
  rw [Config.word?]
  split at h
  · next hr =>
    rw [hr]
    exact congrArg some (Except.ok.inj h)
  · cases h

/-- A block that is ended by leaving leaves with the words that its record reads. -/
theorem terminate_exits {kind : ExitKind} {u : Unit} {limit left : Nat} {o : Outcome}
    (h : terminate kind env s = .ok (u, s')) (hm : s'.builder.Completes m.func)
    (hc : m.At s.builder c) (hvalid : s.facts.valid = true)
    (hrun : (m.runFrom limit left c).result = .ok o) :
    ∃ K cap e s₁ c₁ ws, Records env kind none s K cap e s₁ ∧ s'.exits = (s₁.exits.pushExit e).2 ∧
      o = .exited ⟨s₁.exits.exits.size⟩ ws ∧ Capturing.At s c K cap s₁ c₁ ws := by
  rw [terminate, get_bind] at h
  obtain ⟨t, b₁, h₁, h⟩ := emit_bind_ok h
  obtain ⟨rfl, ht⟩ := Emit.isTerminated_ok h₁
  obtain rfl : false = t := Option.some.inj (Eq.trans hc.isOpen.symm ht)
  rw [if_neg (by simp [hvalid])] at h
  obtain ⟨⟨exit, regs⟩, s₁, h₁, hrest⟩ := bind_ok h
  obtain ⟨_, b₂, h₂, hend⟩ := emit_bind_ok hrest
  obtain ⟨_, s₃, h₃, hlast⟩ := bind_ok hend
  cases h₃
  obtain ⟨K, cap, e, s₀, hrecords, rfl, rfl, rfl⟩ := buildExit_records h₁
  obtain ⟨xs, hcollects, -⟩ := hrecords.collects
  obtain ⟨e₁, -⟩ := hcollects.aside.emits hc.wf hc.isOpen
  have e₂ := (inferInstance : (Emit.exit ⟨s₀.exits.exits.size⟩ cap.regs.toList).Tidy).emits _ _ _
    e₁.after h₂
  have e₃ : b₂.Emits [] s'.builder := Tidy.after hlast (.refl e₂.after)
  have hexits : s'.exits = (s₀.exits.pushExit e).2 := by
    rw [invalidateDominated, read_bind, get_bind] at hlast
    obtain ⟨facts, -, hset⟩ := check_bind_ok hlast
    cases hset
    rfl
  have hm₂ := e₃.toExtends.completes hm
  obtain ⟨c₁, hgoes, hc₁, hkeeps, haside⟩ :=
    Machine.setsAside_runs hcollects.aside (e₂.toExtends.completes hm₂) hc
  obtain ⟨hstep, -⟩ := Machine.terminate_step h₂ hm₂ hc₁
  obtain ⟨k, hsteps⟩ := hgoes.steps
  have hdone := Machine.done_of_steps hsteps (fun c₂ hnext => by
    rw [hstep, Machine.stepTerminator] at hnext
    cases hread : c₁.readAll cap.regs.toList <;> rw [hread] at hnext <;> cases hnext) hrun
  rw [hstep, Machine.stepTerminator] at hdone
  obtain ⟨ws, hread, hdone⟩ := bind_eq_ok_iff.1 hdone
  cases hdone
  exact ⟨K, cap, e, s₀, c₁, ws, hrecords, hexits, rfl, hkeeps, haside, (mapM_eq_ok_iff.1 hread).imp
    fun _ _ => word?_of_read⟩

end Lowering

end SpecJit
