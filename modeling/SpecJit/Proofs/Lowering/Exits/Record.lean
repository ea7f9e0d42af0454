import SpecJit.Proofs.Availability.Step
import SpecJit.Proofs.Exits.Table
import SpecJit.Proofs.Lir.Pairing
import SpecJit.Proofs.Lowering.Datum
import SpecJit.Proofs.Lowering.Smooth

/-!
# What an exit records

`sourceOf` says where an exit takes a value from, given where the value is available: a slot of the
frame, a constant, a register, a sum that the exit redoes, or an object that it builds.
`buildExit_records` says that the record of an exit is just that, variable by variable and, for the
objects it builds, field by field (`Realizes`, `Described`), and that it captures nothing in vain:
every captured register is read by the record, and every new object is reached from it.

Building an exit goes through the variables and, depth first, through the fields of the objects.
What one of these steps adds is said once (`Collects`), and adding up is `Collects.append`. No step
runs out of depth, since the objects that have been announced are different nodes of the graph.
-/

namespace SpecJit

/-- Every element of the second list has its partner. -/
theorem exists_of_forall₂ {α β : Type} {R : α → β → Prop} {l : List α} {l' : List β} {b : β}
    (h : List.Forall₂ R l l') (hb : b ∈ l') : ∃ a ∈ l, R a b := by
  induction h with
  | nil => cases hb
  | cons hab _ ih =>
    rcases List.mem_cons.1 hb with rfl | hb
    · exact ⟨_, List.mem_cons_self, hab⟩
    · obtain ⟨a, ha, hr⟩ := ih hb
      exact ⟨a, List.mem_cons_of_mem _ ha, hr⟩

namespace Lowering

open Lir

variable {env : Env} {s s' s₁ s₂ : State} {c c' c₁ c₂ : Capture} {a : Availability} {id : NodeId}
  {node : Node} {x : ExitValue} {xs ys : List ExitValue} {r : Reg} {K L : List (Reg × Int64)}

/-! ## Where a value comes from -/

/-- An operand of a sum that an exit redoes. -/
inductive Term where
  | register (r : Reg)
  | constant (n : Int32)

/-- Where an exit takes a value from. -/
inductive ExitSource where
  | nowhere
  | slot (slot : Operand) (format : ValueFormat)
  /-- an object that is built from the fields of node `id` -/
  | object (id : NodeId)
  | constant (w : Word)
  | register (r : Reg) (format : ValueFormat)
  | sum (op : RecoveryOp) (left right : Term)

/-- The number of an int32 constant. -/
def int32Constant? : Op → Option Int32
  | .jsConstant (.int32 n) => some n
  | _ => none

/-- An operand that is held as an int32, or is such a constant. -/
def termOf (env : Env) (s : State) (e : Edge) : Option Term :=
  match heldIn env s e.node .int32 with
  | some r => some (.register r)
  | none => ((env.graph.node? e.node).bind fun node => int32Constant? node.op).map .constant

/-- The first of the forms that exits capture in which a node is held. -/
def capturedIn (env : Env) (s : State) (id : NodeId) : Option (Reg × ValueFormat) :=
  capturedForms.findSome? fun f => (heldIn env s id f.1).map (·, f.2)

/-- The sum of a node that only exits need. -/
def sumOf (env : Env) (s : State) (id : NodeId) (node : Node) : ExitSource :=
  if env.exitOnly.contains id then
    match node.children[0]?.bind (termOf env s), node.children[1]?.bind (termOf env s) with
    | some left, some right =>
      .sum (match node.op with
        | .arith .add _ => .add
        | _ => .sub) left right
    | _, _ => .nowhere
  else .nowhere

/-- Where an exit takes the value of a node from. -/
def nodeSource (env : Env) (s : State) (id : NodeId) (node : Node) : ExitSource :=
  match node.op with
  | .phantomAllocation _ => .object id
  | _ =>
    match node.op.constantWord? with
    | some w => .constant w
    | none =>
      match capturedIn env s id with
      | some (r, format) =>
        .register r (if format == .jsValue && node.result == .cell then .cell else format)
      | none => sumOf env s id node

/-- Where an exit takes a value from that is available as `a`. -/
def sourceOf (env : Env) (s : State) (a : Availability) : ExitSource :=
  match a.liveFlush?.bind fun f => (ValueFormat.ofFlush? f.format).map (f.slot, ·) with
  | some (slot, format) => .slot slot format
  | none =>
    match a.node with
    | none => .nowhere
    | some id =>
      match env.graph.node? id with
      | none => .nowhere
      | some node => nodeSource env s id node

/-- Where an exit takes a variable from: one that nothing reads is left out, unless every variable
is asked for. -/
def variableSource (env : Env) (s : State) (v : Operand) (a : Availability) : ExitSource :=
  if env.options.exitLiveness = .pruned ∧ env.graph.isLiveInBytecode v s.origin = false
    then .nowhere
  else sourceOf env s a

theorem heldIn_congr (h : SameButCode s s') (id : NodeId) (form : Form) :
    heldIn env s' id form = heldIn env s id form := by
  rw [heldIn, heldIn, h.values, h.block]

theorem termOf_congr (h : SameButCode s s') (e : Edge) : termOf env s' e = termOf env s e := by
  rw [termOf, termOf, heldIn_congr h]

theorem capturedIn_congr (h : SameButCode s s') (id : NodeId) :
    capturedIn env s' id = capturedIn env s id := by
  simp only [capturedIn, heldIn_congr h]

theorem sumOf_congr (h : SameButCode s s') (id : NodeId) (node : Node) :
    sumOf env s' id node = sumOf env s id node := by
  have : termOf env s' = termOf env s := funext (termOf_congr h)
  simp only [sumOf, this]

theorem sourceOf_congr (h : SameButCode s s') (a : Availability) :
    sourceOf env s' a = sourceOf env s a := by
  simp only [sourceOf, nodeSource, capturedIn_congr h, sumOf_congr h]

theorem variableSource_congr (h : SameButCode s s') (v : Operand) (a : Availability) :
    variableSource env s' v a = variableSource env s v a := by
  rw [variableSource, variableSource, h.origin, sourceOf_congr h]

/-- The variable is not both live and declared dead, if that is checked. -/
def Permitted (env : Env) (s : State) (v : Operand) (a : Availability) : Prop :=
  env.options.validateExitLiveness = true → env.graph.isLiveInBytecode v s.origin = true →
    a.isDead = false

/-! ## What an exit records of it -/

/-- The register holds the operand: the one that does, or one of the constants `K` that were put
aside. -/
inductive Term.In (K : List (Reg × Int64)) : Term → Reg → Prop
  | register (r : Reg) : Term.In K (.register r) r
  | constant {n : Int32} {r : Reg} : (r, Int64.ofInt n.toInt) ∈ K → Term.In K (.constant n) r

theorem Term.In.mono {l : Term} (h : l.In K r) (hK : K ⊆ L) : l.In L r := by
  cases h with
  | register => exact .register r
  | constant h => exact .constant (hK h)

/-- The recorded value takes what it restores from the source. -/
inductive Realizes (K : List (Reg × Int64)) (c : Capture) : ExitSource → ExitValue → Prop
  | nowhere : Realizes K c .nowhere .dead
  | slot (v : Operand) (format : ValueFormat) : Realizes K c (.slot v format) (.inStack v format)
  | object {id : NodeId} {m : MaterializationId} : (id, m) ∈ c.built → Realizes K c (.object id)
    (.materialize m)
  | constant (w : Word) : Realizes K c (.constant w) (.constant w)
  | register {r : Reg} {format : ValueFormat} {i : Nat} : c.regs[i]? = some r →
      Realizes K c (.register r format) (.argument i format)
  | sum {op : RecoveryOp} {left right : Term} {l r : Reg} {i j : Nat} : left.In K l → right.In K r →
      c.regs[i]? = some l → c.regs[j]? = some r → Realizes K c (.sum op left right)
        (.recovery op i j .int32)

/-- What has been captured stays captured. -/
structure Capture.Sub (c c' : Capture) : Prop where
  regs : ∀ (i : Nat) (r : Reg), c.regs[i]? = some r → c'.regs[i]? = some r
  built : c.built ⊆ c'.built
  size : c.regs.size ≤ c'.regs.size

theorem Capture.Sub.refl (c : Capture) : c.Sub c := ⟨fun _ _ h => h, fun _ h => h, Nat.le_refl _⟩

theorem Capture.Sub.trans (h₁ : c.Sub c₁) (h₂ : c₁.Sub c₂) : c.Sub c₂ :=
  ⟨fun i r h => h₂.regs i r (h₁.regs i r h), fun _ h => h₂.built (h₁.built h),
    Nat.le_trans h₁.size h₂.size⟩

theorem Realizes.mono {src : ExitSource} (h : Realizes K c src x) (hK : K ⊆ L) (hc : c.Sub c') :
    Realizes L c' src x := by
  cases h with
  | nowhere => exact .nowhere
  | slot v format => exact .slot v format
  | object h => exact .object (hc.built h)
  | constant w => exact .constant w
  | register h => exact .register (hc.regs _ _ h)
  | sum hl hr hi hj => exact .sum (hl.mono hK) (hr.mono hK) (hc.regs _ _ hi) (hc.regs _ _ hj)

/-- A value is recorded as dead exactly if it comes from nowhere. -/
theorem Realizes.eq_dead_iff {src : ExitSource} (h : Realizes K c src x) :
    x = .dead ↔ src = .nowhere := by
  cases h <;> simp

/-- Object `m` is described as node `id` says, field by field. -/
def Described (env : Env) (s : State) (K : List (Reg × Int64)) (c : Capture) (t : ExitTable)
    (id : NodeId) (m : MaterializationId) : Prop :=
  ∃ node kind record, env.graph.node? id = some node ∧ node.op = .phantomAllocation kind ∧
    t.materialization? m = some record ∧ record.kind = kind.materialization ∧
    record.origin = node.origin ∧
    List.Forall₂ (fun (f : PromotedLocation × Availability) p => p.1 = f.1 ∧
      Realizes K c (sourceOf env s f.2) p.2)
      (s.availability.fieldsOf id) record.properties

theorem Described.lt {t : ExitTable} {m : MaterializationId} (h : Described env s K c t id m) :
    m.index < t.materializations.size := by
  obtain ⟨-, -, record, -, -, hrecord, -⟩ := h
  exact (Array.getElem?_eq_some_iff.1 hrecord).1

theorem Described.mono {t t' : ExitTable} {m : MaterializationId} (h : Described env s K c t id m)
    (hK : K ⊆ L) (hc : c.Sub c') (hs : SameButCode s s')
    (ht : t'.materialization? m = t.materialization? m) :
    Described env s' L c' t' id m := by
  obtain ⟨node, kind, record, hnode, hop, hrecord, hkind, horigin, hfields⟩ := h
  refine ⟨node, kind, record, hnode, hop, ht.trans hrecord, hkind, horigin, ?_⟩
  rw [hs.availability]
  refine hfields.imp fun f p hp => ⟨hp.1, ?_⟩
  rw [sourceOf_congr hs]
  exact hp.2.mono hK hc

/-! ## What a step of building an exit adds -/

/-- The captured value with index `i` is read by one of the values, or by a field of an object from
`first` on. -/
def Mentioned (t : ExitTable) (first : Nat) (xs : List ExitValue) (i : Nat) : Prop :=
  (∃ x ∈ xs, i ∈ x.argumentIndices) ∨ ∃ m record, first ≤ m.index ∧
    t.materialization? m = some record ∧
    ∃ p ∈ record.properties, i ∈ p.2.argumentIndices

/-- The objects announced so far are different nodes of the graph, and different objects of the
table. -/
structure Capture.Keyed (env : Env) (t : ExitTable) (c : Capture) : Prop where
  nodup : (c.built.map Prod.fst).Nodup
  inRange : ∀ p ∈ c.built, p.1.index < env.graph.nodes.size
  distinct : (c.built.map Prod.snd).Nodup
  has : ∀ p ∈ c.built, t.Has p.2

theorem Capture.Keyed.length_le {t : ExitTable} (h : c.Keyed env t) :
    c.built.length ≤ env.graph.nodes.size := by
  have hsub : c.built.map Prod.fst ⊆ (List.range env.graph.nodes.size).map NodeId.mk := by
    intro id hid
    obtain ⟨p, hp, rfl⟩ := List.mem_map.1 hid
    exact List.mem_map.2 ⟨p.1.index, List.mem_range.2 (h.inRange p hp), rfl⟩
  simpa using (h.nodup.subperm hsub).length_le

/-- A step from `c` and `s` to `c'` and `s'` that gives the values `xs`: it captures what they read,
describes the objects that they need, and puts the constants `K` aside. -/
structure Collects (env : Env) (c : Capture) (s : State) (xs : List ExitValue)
    (K : List (Reg × Int64)) (c' : Capture) (s' : State) : Prop where
  same : SameButCode s s'
  aside : s.builder.SetsAside K s'.builder
  exits : s'.exits.exits = s.exits.exits
  caches : s'.caches = s.caches
  stats : s'.stats = s.stats
  sub : c.Sub c'
  keyed : c'.Keyed env s'.exits
  length : c.built.length ≤ c'.built.length
  size : s.exits.materializations.size ≤ s'.exits.materializations.size
  kept : ∀ m : MaterializationId, m.index < s.exits.materializations.size →
    s'.exits.materialization? m = s.exits.materialization? m
  described : ∀ p ∈ c'.built, p ∈ c.built ∨ s.exits.materializations.size ≤ p.2.index ∧
    Described env s K c' s'.exits p.1 p.2
  reached : ∀ m : MaterializationId, s.exits.materializations.size ≤ m.index →
    m.index < s'.exits.materializations.size →
    (∃ id, (id, m) ∈ c'.built) ∧ ∃ x ∈ xs, ∃ d, x.materialization? = some d ∧ s'.exits.Reaches d m
  mentioned : ∀ i, c.regs.size ≤ i → i < c'.regs.size →
    Mentioned s'.exits s.exits.materializations.size xs i

namespace Collects

/-- What is there needs what it needed before. -/
theorem needs (h : Collects env c s xs K c' s') (m d : MaterializationId) (hmd : s.exits.Needs m d)
    : s'.exits.Needs m d := by
  obtain ⟨record, hrecord, hd⟩ := hmd
  have hlt : m.index < s.exits.materializations.size := (Array.getElem?_eq_some_iff.1 hrecord).1
  exact ⟨record, (h.kept m hlt).trans hrecord, hd⟩

/-- A step that only captures registers. -/
theorem of_regs (hs : SameButCode s s') (hK : s.builder.SetsAside K s'.builder)
    (hexits : s'.exits = s.exits) (hcaches : s'.caches = s.caches) (hstats : s'.stats = s.stats)
    (hc : c.Sub c') (hbuilt : c'.built = c.built) (hk : c.Keyed env s.exits)
    (hnew : ∀ i, c.regs.size ≤ i → i < c'.regs.size → ∃ x ∈ xs, i ∈ x.argumentIndices) :
    Collects env c s xs K c' s' where
  same := hs
  aside := hK
  exits := by rw [hexits]
  caches := hcaches
  stats := hstats
  sub := hc
  keyed := by
    rw [hexits]
    exact ⟨hbuilt ▸ hk.nodup, hbuilt ▸ hk.inRange, hbuilt ▸ hk.distinct, hbuilt ▸ hk.has⟩
  length := by rw [hbuilt]
  size := by rw [hexits]
  kept _ _ := by rw [hexits]
  described p hp := .inl (hbuilt ▸ hp)
  reached m h₁ h₂ := absurd (hexits ▸ h₂) (Nat.not_lt.2 h₁)
  mentioned i h₁ h₂ := .inl (hnew i h₁ h₂)

theorem refl (hk : c.Keyed env s.exits) (xs : List ExitValue) : Collects env c s xs [] c s :=
  of_regs (.refl s) (.refl _) rfl rfl rfl (.refl c) rfl hk fun _ h₁ h₂ =>
    absurd h₂ (Nat.not_lt.2 h₁)

/-- One step after another. -/
theorem append (h₁ : Collects env c s xs K c₁ s₁) (h₂ : Collects env c₁ s₁ ys L c₂ s₂) :
    Collects env c s (xs ++ ys) (K ++ L) c₂ s₂ where
  same := h₁.same.trans h₂.same
  aside := h₁.aside.trans h₂.aside
  exits := h₂.exits.trans h₁.exits
  caches := h₂.caches.trans h₁.caches
  stats := h₂.stats.trans h₁.stats
  sub := h₁.sub.trans h₂.sub
  keyed := h₂.keyed
  length := Nat.le_trans h₁.length h₂.length
  size := Nat.le_trans h₁.size h₂.size
  kept m hm := (h₂.kept m (Nat.lt_of_lt_of_le hm h₁.size)).trans (h₁.kept m hm)
  described p hp := by
    rcases h₂.described p hp with hp₁ | ⟨hle, hd⟩
    · rcases h₁.described p hp₁ with hp₀ | ⟨hle, hd⟩
      · exact .inl hp₀
      · refine .inr ⟨hle, ?_⟩
        exact hd.mono (List.subset_append_left K L) h₂.sub (.refl s) (h₂.kept _ hd.lt)
    · refine .inr ⟨Nat.le_trans h₁.size hle, ?_⟩
      obtain ⟨node, kind, record, hnode, hop, hrecord, hkind, horigin, hfields⟩ := hd
      rw [h₁.same.availability] at hfields
      simp only [sourceOf_congr h₁.same] at hfields
      exact ⟨node, kind, record, hnode, hop, hrecord, hkind, horigin, hfields.imp fun _ _ hp =>
        ⟨hp.1, hp.2.mono (List.subset_append_right K L) (.refl _)⟩⟩
  reached m hle hlt := by
    by_cases hm : m.index < s₁.exits.materializations.size
    · obtain ⟨⟨id, hid⟩, x, hx, d, hd, hr⟩ := h₁.reached m hle hm
      exact ⟨⟨id, h₂.sub.built hid⟩, x, List.mem_append_left _ hx, d, hd, hr.mono h₂.needs⟩
    · obtain ⟨hid, x, hx, d, hd, hr⟩ := h₂.reached m (Nat.le_of_not_lt hm) hlt
      exact ⟨hid, x, List.mem_append_right _ hx, d, hd, hr⟩
  mentioned i hle hlt := by
    by_cases hi : i < c₁.regs.size
    · rcases h₁.mentioned i hle hi with ⟨x, hx, hix⟩ | ⟨m, record, hm, hrecord, hp⟩
      · exact .inl ⟨x, List.mem_append_left _ hx, hix⟩
      · have hlt : m.index < s₁.exits.materializations.size :=
          (Array.getElem?_eq_some_iff.1 hrecord).1
        exact .inr ⟨m, record, hm, (h₂.kept m hlt).trans hrecord, hp⟩
    · rcases h₂.mentioned i (Nat.le_of_not_lt hi) hlt with ⟨x, hx, hix⟩ | ⟨m, record, hm, hrecord,
        hp⟩
      · exact .inl ⟨x, List.mem_append_right _ hx, hix⟩
      · exact .inr ⟨m, record, Nat.le_trans h₁.size hm, hrecord, hp⟩

end Collects

/-! ## Steps -/

section Steps

variable {α β : Type}

theorem capturing_bind_ok {y : Capturing α} {f : α → Capturing β} {p : (β × Capture) × State}
    (h : (y >>= f) c env s = .ok p) :
    ∃ a c₁ s₁, y c env s = .ok ((a, c₁), s₁) ∧ f a c₁ env s₁ = .ok p := by
  obtain ⟨q, s₁, h₁, h₂⟩ := bind_ok (x := y c) (f := fun q => f q.1 q.2) h
  exact ⟨q.1, q.2, s₁, h₁, h₂⟩

theorem capturing_lift_ok {x : Lower α} {a : α}
    (h : (liftM x : Capturing α) c env s = .ok ((a, c'), s')) :
    x env s = .ok (a, s') ∧ c' = c := by
  obtain ⟨a', s₁, h₁, h₂⟩ := bind_ok (x := x) (f := fun a => pure (a, c)) h
  cases h₂
  exact ⟨h₁, rfl⟩

theorem capturing_lift_bind_ok {x : Lower α} {f : α → Capturing β} {p : (β × Capture) × State}
    (h : ((liftM x : Capturing α) >>= f) c env s = .ok p) :
    ∃ a s₁, x env s = .ok (a, s₁) ∧ f a c env s₁ = .ok p := by
  obtain ⟨a, c₁, s₁, h₁, h₂⟩ := capturing_bind_ok h
  obtain ⟨hx, rfl⟩ := capturing_lift_ok h₁
  exact ⟨a, s₁, hx, h₂⟩

theorem capturing_check_bind_ok {x : Except Fault α} {f : α → Capturing β}
    {p : (β × Capture) × State} (h : ((liftM x : Capturing α) >>= f) c env s = .ok p) :
    ∃ a, x = .ok a ∧ f a c env s = .ok p := by
  obtain ⟨a, s₁, h₁, h₂⟩ := capturing_lift_bind_ok (x := (liftM x : Lower α)) h
  obtain ⟨hx, rfl⟩ := check_ok h₁
  exact ⟨a, hx, h₂⟩

theorem capturing_getNode_bind_ok {f : Node → Capturing β} {p : (β × Capture) × State}
    (h : ((liftM (getNode id) : Capturing Node) >>= f) c env s = .ok p) :
    ∃ node, env.graph.node? id = some node ∧ f node c env s = .ok p := by
  obtain ⟨node, s₁, h₁, h₂⟩ := capturing_lift_bind_ok h
  obtain ⟨hnode, rfl⟩ := check_ok h₁
  exact ⟨node, Fault.ofOption_eq_ok.1 hnode, h₂⟩

end Steps

/-- Capturing a register gives the place that it has, or the next one. -/
theorem capture_ok {i : Nat} (h : capture r c env s = .ok ((i, c'), s')) :
    s' = s ∧ c'.built = c.built ∧ c.Sub c' ∧ c'.regs[i]? = some r ∧
      ∀ j, c.regs.size ≤ j → j < c'.regs.size → j = i := by
  obtain ⟨_, _, _, h₀, h⟩ := capturing_bind_ok h
  cases h₀
  cases hi : c.regs.idxOf? r with
  | some place =>
    rw [hi] at h
    cases h
    refine ⟨rfl, rfl, .refl c, ?_, fun j h₁ h₂ => absurd h₂ (Nat.not_lt.2 h₁)⟩
    obtain ⟨k, hk, rfl⟩ := Option.map_eq_some_iff.1 hi
    exact (Array.getElem?_eq_getElem k.isLt).trans
      (congrArg some (Array.finIdxOf?_eq_some_iff.1 hk).1)
  | none =>
    rw [hi] at h
    cases h
    refine ⟨rfl, rfl, ⟨fun i q hq => ?_, fun _ h => h, by simp⟩, by simp, fun j h₁ h₂ => ?_⟩
    · have hlt := (Array.getElem?_eq_some_iff.1 hq).1
      rw [Array.getElem?_push_lt hlt, ← hq, Array.getElem?_eq_getElem hlt]
    · simp only [Array.size_push] at h₂
      omega

theorem firstHeld?_eq (forms : List (Form × ValueFormat)) : firstHeld? id forms env s =
    .ok (forms.findSome? fun f => (heldIn env s id f.1).map (·, f.2), s) := by
  induction forms with
  | nil => rfl
  | cons f rest ih =>
    rw [firstHeld?, held?_bind, List.findSome?_cons]
    cases heldIn env s id f.1 with
    | some r => rfl
    | none => exact ih

theorem int32_setsAside {n : Int32} {b b' : Builder} (h : Emit.int32 n.toInt b = .ok (r, b')) :
    b.SetsAside [(r, Int64.ofInt n.toInt)] b' := by
  obtain ⟨b₁, h₁, rfl, rfl⟩ := Emit.define_ok h
  exact .step (Emit.ensureOpen_opened h₁) (.refl _)

/-- An operand of a sum is in a register, where the exit puts it if it is a constant. -/
theorem int32ForExit?_ok {e : Edge} {o : Option Reg} (h : int32ForExit? e env s = .ok (o, s')) :
    ∃ K, (∃ b', s.builder.SetsAside K b' ∧ s' = { s with builder := b' }) ∧
      (∀ r, o = some r → ∃ l, termOf env s e = some l ∧ l.In K r) ∧
      (o = none → termOf env s e = none) := by
  rw [int32ForExit?, held?_bind] at h
  cases hr : heldIn env s e.node .int32 with
  | some r =>
    rw [hr] at h
    cases h
    exact ⟨[], ⟨_, .refl _, rfl⟩,
      fun q hq => ⟨.register r, by rw [termOf, hr], Option.some.inj hq ▸ .register r⟩,
      fun hnone => by cases hnone⟩
  | none =>
    rw [hr] at h
    obtain ⟨node, hnode, h⟩ := getNode_bind_ok h
    have hterm : termOf env s e = (int32Constant? node.op).map .constant := by
      rw [termOf, hr, Fault.ofOption_eq_ok.1 hnode]
      rfl
    rw [hterm]
    generalize node.op = op at h
    split at h
    next n =>
      obtain ⟨r, b', hb, h⟩ := emit_bind_ok h
      cases h
      exact ⟨_, ⟨b', int32_setsAside hb, rfl⟩, fun q hq => ⟨.constant n, rfl, Option.some.inj hq ▸
        .constant (by simp)⟩,
        fun hnone => by cases hnone⟩
    next hne =>
      cases h
      refine ⟨[], ⟨_, .refl _, rfl⟩, fun _ hsome => (by cases hsome), fun _ => ?_⟩
      unfold int32Constant?
      split
      · exact absurd rfl (hne _)
      · rfl

/-- A sum that the exit redoes. -/
theorem recoveryOf_collects (hk : c.Keyed env s.exits)
    (h : recoveryOf id node c env s = .ok ((x, c'), s')) :
    ∃ K, Collects env c s [x] K c' s' ∧ Realizes K c' (sumOf env s id node) x := by
  change ((if !env.exitOnly.contains id then pure .dead else _ : Capturing ExitValue) c env s) = _
    at h
  rw [sumOf]
  cases honly : env.exitOnly.contains id with
  | false =>
    rw [honly] at h
    cases h
    exact ⟨[], .refl hk _, .nowhere⟩
  | true =>
    rw [honly] at h
    simp only [Bool.not_true, Bool.false_eq_true, if_false, if_true] at h ⊢
    obtain ⟨e₁, he₁, h⟩ := capturing_check_bind_ok h
    obtain ⟨left, s₁, hleft, h⟩ := capturing_lift_bind_ok h
    obtain ⟨e₂, he₂, h⟩ := capturing_check_bind_ok h
    obtain ⟨right, s₂, hright, h⟩ := capturing_lift_bind_ok h
    obtain ⟨K, ⟨b₁, hb₁, rfl⟩, hleft, hnoLeft⟩ := int32ForExit?_ok hleft
    obtain ⟨L, ⟨b₂, hb₂, rfl⟩, hright, hnoRight⟩ := int32ForExit?_ok hright
    refine ⟨K ++ L, ?_⟩
    rw [Fault.ofOption_eq_ok.1 he₁, Fault.ofOption_eq_ok.1 he₂, Option.bind_some, Option.bind_some]
    have hsame : SameButCode s { s with builder := b₂ } := ⟨rfl, rfl, rfl, rfl, rfl, rfl, rfl, rfl⟩
    have haside := hb₁.trans hb₂
    have hdead : Collects env c s [.dead] (K ++ L) c { s with builder := b₂ } :=
      .of_regs hsame haside rfl rfl rfl (.refl c) rfl hk fun _ h₁ h₂ => absurd h₂ (Nat.not_lt.2 h₁)
    cases left with
    | none =>
      cases h
      rw [hnoLeft rfl]
      exact ⟨hdead, .nowhere⟩
    | some l =>
      obtain ⟨tl, htl, hl⟩ := hleft l rfl
      cases right with
      | none =>
        cases h
        rw [htl, show termOf env s e₂ = none from hnoRight rfl]
        exact ⟨hdead, .nowhere⟩
      | some r =>
        obtain ⟨tr, htr, hr⟩ := hright r rfl
        obtain ⟨i, c₁, _, h₁, h⟩ := capturing_bind_ok h
        obtain ⟨j, c₂, _, h₂, h⟩ := capturing_bind_ok h
        cases h
        obtain ⟨rfl, hbuilt₁, hsub₁, hi, hnew₁⟩ := capture_ok h₁
        obtain ⟨rfl, hbuilt₂, hsub₂, hj, hnew₂⟩ := capture_ok h₂
        rw [htl, show termOf env s e₂ = some tr from htr]
        refine ⟨.of_regs hsame haside rfl rfl rfl (hsub₁.trans hsub₂) (hbuilt₂.trans hbuilt₁) hk
          fun k hk₁ hk₂ => ?_,
          .sum (hl.mono (List.subset_append_left K L)) (hr.mono (List.subset_append_right K L))
            (hsub₂.regs _ _ hi) hj⟩
        -- a new place is the one of the left or of the right operand
        refine ⟨_, List.mem_singleton_self _, ?_⟩
        by_cases hlt : k < c₁.regs.size
        · rw [hnew₁ k hk₁ hlt]
          exact List.mem_cons_self
        · rw [hnew₂ k (Nat.le_of_not_lt hlt) hk₂]
          exact List.mem_cons_of_mem _ (List.mem_singleton_self _)

/-- A node that is no allocation. -/
theorem capturedValue_collects (hk : c.Keyed env s.exits)
    (hop : ∀ kind, node.op ≠ .phantomAllocation kind)
    (h : capturedValue id node c env s = .ok ((x, c'), s')) :
    ∃ K, Collects env c s [x] K c' s' ∧ Realizes K c' (nodeSource env s id node) x := by
  have hsource : nodeSource env s id node = match node.op.constantWord? with
      | some w => .constant w
      | none =>
        match capturedIn env s id with
        | some (r, format) =>
          .register r (if format == .jsValue && node.result == .cell then .cell else format)
        | none => sumOf env s id node := by
    unfold nodeSource
    split
    · next kind hkind => exact absurd hkind (hop kind)
    · rfl
  rw [hsource]
  unfold capturedValue at h
  cases hword : node.op.constantWord? with
  | some w =>
    rw [hword] at h
    cases h
    exact ⟨[], .refl hk _, .constant w⟩
  | none =>
    rw [hword] at h
    obtain ⟨held, s₁, h₁, h⟩ := capturing_lift_bind_ok h
    rw [firstHeld?_eq] at h₁
    cases h₁
    change (match capturedIn env s id with
      | some (r, format) => do
        return .argument (← capture r) (if format == .jsValue && node.result == .cell then .cell
          else format)
      | none => recoveryOf id node : Capturing ExitValue) c env s = _ at h
    cases hheld : capturedIn env s id with
    | none =>
      rw [hheld] at h
      exact recoveryOf_collects hk h
    | some p =>
      rw [hheld] at h
      obtain ⟨i, c₁, _, h₁, h⟩ := capturing_bind_ok h
      cases h
      obtain ⟨rfl, hbuilt, hsub, hi, hnew⟩ := capture_ok h₁
      refine ⟨[], .of_regs (.refl _) (.refl _) rfl rfl rfl hsub hbuilt hk fun k hk₁ hk₂ => ?_,
        .register hi⟩
      rw [hnew k hk₁ hk₂]
      exact ⟨_, List.mem_singleton_self _, List.mem_singleton_self _⟩

/-! ## Objects -/

/-- Values taken one after the other, each from its source. -/
theorem mapM_collects {α β : Type} {f : α → Capturing (β × ExitValue)} {k : α → β}
    {g : State → α → ExitSource}
    {P : State → α → Prop} (hsrc : ∀ {s s'} a, SameButCode s s' → g s' a = g s a)
    (hfact : ∀ {s s'} a, SameButCode s s' → P s' a → P s a) {n : Nat}
    (hf : ∀ a c s p c' s', c.Keyed env s.exits → n ≤ c.built.length →
      f a c env s = .ok ((p, c'), s') →
      ∃ K, Collects env c s [p.2] K c' s' ∧ p.1 = k a ∧ Realizes K c' (g s a) p.2 ∧ P s a) :
    ∀ {l : List α} {c : Capture} {s : State} {ps : List (β × ExitValue)} {c' : Capture} {s'
      : State},
      c.Keyed env s.exits → n ≤ c.built.length → l.mapM f c env s = .ok ((ps, c'), s') →
      ∃ K, Collects env c s (ps.map Prod.snd) K c' s' ∧ (∀ a ∈ l, P s a) ∧
        List.Forall₂ (fun a p => p.1 = k a ∧ Realizes K c' (g s a) p.2) l ps
  | [], c, s, ps, c', s', hk, _, h => by
    cases h
    exact ⟨[], .refl hk _, nofun, .nil⟩
  | a :: l, c, s, ps, c', s', hk, hlen, h => by
    rw [List.mapM_cons] at h
    obtain ⟨p, c₁, s₁, h₁, h⟩ := capturing_bind_ok h
    obtain ⟨qs, c₂, s₂, h₂, h⟩ := capturing_bind_ok h
    cases h
    obtain ⟨K, e₁, hkey, hp, ha⟩ := hf a c s p c₁ s₁ hk hlen h₁
    obtain ⟨L, e₂, hl, hqs⟩ := mapM_collects hsrc hfact hf e₁.keyed (Nat.le_trans hlen e₁.length) h₂
    refine ⟨K ++ L, e₁.append e₂, ?_, .cons ⟨hkey, hp.mono (List.subset_append_left K L) e₂.sub⟩ ?_⟩
    · exact List.forall_mem_cons.2 ⟨ha, fun b hb => hfact b e₁.same (hl b hb)⟩
    · exact hqs.imp fun _ _ hq => ⟨hq.1, hsrc _ e₁.same ▸ hq.2.mono (List.subset_append_right K L)
        (.refl _)⟩

/-- The state in which an object is announced. -/
def announcing (s : State) (kind : PhantomKind) (origin : CodeOrigin) : State :=
  { s with exits := (s.exits.pushMaterialization { kind := kind.materialization, origin }).2 }

/-- The object that an allocation stands for: it is announced first, so that its own fields find it,
and described when they are done. -/
theorem describe_collects {kind : PhantomKind} {m : MaterializationId}
    {ps : List (PromotedLocation × ExitValue)}
    (hnode : env.graph.node? id = some node) (hop : node.op = .phantomAllocation kind)
    (hm : m = ⟨s.exits.materializations.size⟩)
    (h : Collects env { c with built := (id, m) :: c.built } (announcing s kind node.origin)
      (ps.map Prod.snd) K c₂ s₂)
    (hfields : List.Forall₂
      (fun (f : PromotedLocation × Availability) (p : PromotedLocation × ExitValue) =>
      p.1 = f.1 ∧ Realizes K c₂ (sourceOf env s f.2) p.2) (s.availability.fieldsOf id) ps) :
    Collects env c s [.materialize m] K c₂ { s₂ with exits := s₂.exits.withFields m ps } := by
  have hpush : (announcing s kind node.origin).exits.materializations.size
    = s.exits.materializations.size + 1 :=
    Array.size_push _
  have hsize := h.size
  rw [hpush] at hsize
  have hindex : m.index = s.exits.materializations.size := by rw [hm]
  have hempty : s₂.exits.materialization? m = some { kind := kind.materialization,
                                                     origin := node.origin } := by
    rw [h.kept m (by rw [hpush, hm]; exact Nat.lt_succ_self _), hm]
    exact Array.getElem?_push_size
  have hsame : SameButCode s s₂ := ⟨h.same.facts, h.same.availability, h.same.values, h.same.block,
    h.same.armDepth,
    h.same.node, h.same.origin, h.same.upsilons⟩
  have hkeyed : c₂.Keyed env (s₂.exits.withFields m ps) :=
    ⟨h.keyed.nodup, h.keyed.inRange, h.keyed.distinct,
    fun p hp => by simpa [ExitTable.Has, ExitTable.withFields] using h.keyed.has p hp⟩
  refine ⟨⟨hsame.facts, hsame.availability, hsame.values, hsame.block, hsame.armDepth, hsame.node,
    hsame.origin,
    hsame.upsilons⟩, h.aside, h.exits, h.caches, h.stats,
      ⟨h.sub.regs, fun _ hp => h.sub.built (List.mem_cons_of_mem _ hp),
    h.sub.size⟩, hkeyed, Nat.le_trans (Nat.le_succ _) h.length,
      by simp [ExitTable.withFields]; omega, fun d hd => ?_,
    fun p hp => ?_, fun d hd₁ hd₂ => ?_, fun i hi₁ hi₂ => ?_⟩
  · have hne : d ≠ m := fun he => by rw [he, hindex] at hd; omega
    rw [ExitTable.withFields_of_ne hne, h.kept d (by omega)]
    exact (Array.getElem?_push_lt hd).trans (Array.getElem?_eq_getElem hd).symm
  · rcases h.described p hp with hold | ⟨hle, hd⟩
    · rcases List.mem_cons.1 hold with rfl | hold
      · exact .inr ⟨Nat.le_of_eq hindex.symm, node, kind, _, hnode, hop, ExitTable.withFields_self
          hempty, rfl, rfl, hfields⟩
      · exact .inl hold
    · rw [hpush] at hle
      have hne : p.2 ≠ m := fun he => by rw [he, hindex] at hle; omega
      exact .inr ⟨by
        omega, hd.mono (List.Subset.refl _) (.refl _) ⟨rfl, rfl, rfl, rfl, rfl, rfl, rfl, rfl⟩
        (ExitTable.withFields_of_ne hne)⟩
  · by_cases hdm : d = m
    · exact ⟨⟨id, hdm ▸ h.sub.built List.mem_cons_self⟩, _, List.mem_singleton_self _, m, rfl, hdm ▸
        .refl⟩
    · have hne : d.index ≠ s.exits.materializations.size := fun he => hdm (by rw [hm, ← he])
      simp only [ExitTable.withFields, Array.size_modify] at hd₂
      obtain ⟨hid, x, hx, d', hd', hr⟩ := h.reached d (by omega) hd₂
      obtain ⟨p, hp, rfl⟩ := List.mem_map.1 hx
      refine ⟨hid, _, List.mem_singleton_self _, m, rfl, .head ⟨_, ExitTable.withFields_self hempty,
        ?_⟩
        (hr.mono (ExitTable.Needs.withFields hempty rfl))⟩
      exact List.mem_filterMap.2 ⟨p, hp, hd'⟩
  · rcases h.mentioned i hi₁ hi₂ with ⟨x, hx, hix⟩ | ⟨d, record, hd, hrecord, hp⟩
    · obtain ⟨p, hp, rfl⟩ := List.mem_map.1 hx
      exact .inr ⟨m, _, Nat.le_of_eq hindex.symm, ExitTable.withFields_self hempty, p, hp, hix⟩
    · rw [hpush] at hd
      have hne : d ≠ m := fun he => by rw [he, hindex] at hd; omega
      exact .inr ⟨d, record, by omega, (ExitTable.withFields_of_ne hne).trans hrecord, hp⟩

/-- A value that is available somewhere. The objects announced so far and the depth that is left
make more than there are nodes, so the depth is enough. -/
theorem exitValue_collects {depth : Nat} (hk : c.Keyed env s.exits)
    (hdepth : env.graph.nodes.size < depth + c.built.length)
    (h : exitValue depth a c env s = .ok ((x, c'), s')) :
    ∃ K, Collects env c s [x] K c' s' ∧ Realizes K c' (sourceOf env s a) x := by
  induction depth generalizing a c s x c' s' with
  | zero =>
    have := hk.length_le
    omega
  | succ depth ih =>
    rw [exitValue] at h
    rw [sourceOf]
    cases hflush : a.liveFlush?.bind fun f => (ValueFormat.ofFlush? f.format).map (f.slot, ·) with
    | some p =>
      rw [hflush] at h
      cases h
      exact ⟨[], .refl hk _, .slot _ _⟩
    | none =>
      rw [hflush] at h
      cases hid : a.node with
      | none =>
        rw [hid] at h
        cases h
        exact ⟨[], .refl hk _, .nowhere⟩
      | some id =>
        rw [hid] at h
        obtain ⟨node, hnode, h⟩ := capturing_getNode_bind_ok h
        simp only [hnode]
        by_cases hop : ∃ kind, node.op = .phantomAllocation kind
        · obtain ⟨kind, hop⟩ := hop
          have hsource : nodeSource env s id node = .object id := by simp only [nodeSource, hop]
          rw [hsource]
          rw [hop] at h
          obtain ⟨_, _, _, h₀, h⟩ := capturing_bind_ok h
          cases h₀
          cases hbuilt : c.built.lookup id with
          | some m =>
            rw [hbuilt] at h
            cases h
            obtain ⟨l₁, l₂, hl, -⟩ := List.lookup_eq_some_iff.1 hbuilt
            exact ⟨[], .refl hk _, .object (hl ▸ List.mem_append_right _ List.mem_cons_self)⟩
          | none =>
            rw [hbuilt] at h
            obtain ⟨m, c₁, s₁, h₁, h⟩ := capturing_bind_ok h
            cases h₁
            obtain ⟨_, c₁, s₁, h₁, h⟩ := capturing_bind_ok h
            cases h₁
            obtain ⟨ps, c₂, s₂, h₂, h⟩ := capturing_bind_ok h
            cases h
            have hkeyed : Capture.Keyed env (announcing s kind node.origin).exits
                { c with built := (id, ⟨s.exits.materializations.size⟩) :: c.built } := by
              have hid := List.lookup_eq_none_iff.1 hbuilt
              have hsize : (announcing s kind node.origin).exits.materializations.size =
                s.exits.materializations.size + 1 := Array.size_push _
              refine ⟨List.nodup_cons.2 ⟨fun hmem => ?_, hk.nodup⟩, fun p hp => ?_,
                List.nodup_cons.2 ⟨fun hmem => ?_, hk.distinct⟩, fun p hp => ?_⟩
              · obtain ⟨p, hp, hpid⟩ := List.mem_map.1 hmem
                have := hid p hp
                simp [hpid] at this
              · rcases List.mem_cons.1 hp with rfl | hp
                · exact (Array.getElem?_eq_some_iff.1 hnode).1
                · exact hk.inRange p hp
              · obtain ⟨p, hp, hpm⟩ := List.mem_map.1 hmem
                have hlt : p.2.index < s.exits.materializations.size := hk.has p hp
                rw [hpm] at hlt
                exact Nat.lt_irrefl _ hlt
              · rw [ExitTable.Has, hsize]
                rcases List.mem_cons.1 hp with rfl | hp
                · exact Nat.lt_succ_self _
                · exact Nat.lt_succ_of_lt (hk.has p hp)
            obtain ⟨K, hcollects, -, hfields⟩ :=
              mapM_collects (k := fun (f : PromotedLocation × Availability) => f.1)
              (g := fun s f => sourceOf env s f.2) (P := fun _ _ => True) (n := c.built.length + 1)
              (fun f hs => sourceOf_congr hs f.2) (fun _ _ _ => trivial)
              (fun f c s p c' s' hk hlen h => by
                obtain ⟨x, c₁, s₁, h₁, h⟩ := capturing_bind_ok h
                cases h
                obtain ⟨K, hcollects, hx⟩ := ih hk (by omega) h₁
                exact ⟨K, hcollects, rfl, hx, trivial⟩)
              (s := announcing s kind node.origin) hkeyed (Nat.le_refl _) h₂
            exact ⟨K, describe_collects hnode hop rfl hcollects hfields,
              .object (hcollects.sub.built List.mem_cons_self)⟩
        · have hvalue : capturedValue id node c env s = .ok ((x, c'), s') := by
            generalize hop' : node.op = op at h
            split at h
            · next kind => exact absurd ⟨kind, hop'⟩ hop
            · exact h
          exact capturedValue_collects hk (fun kind hkind => hop ⟨kind, hkind⟩) hvalue

/-! ## Variables -/

/-- A variable comes from its source. -/
theorem exitVariable_collects {v : Operand} (hk : c.Keyed env s.exits)
    (h : exitVariable v a c env s = .ok ((x, c'), s')) :
    ∃ K, Collects env c s [x] K c' s' ∧ Realizes K c' (variableSource env s v a) x ∧
      Permitted env s v a := by
  change (if (env.options.validateExitLiveness && env.graph.isLiveInBytecode v s.origin &&
    a.isDead) = true then
      (liftM (crash (.killedButLive v s.origin) : Lower Unit) : Capturing Unit) >>= _
    else (if (env.options.exitLiveness == .pruned && !env.graph.isLiveInBytecode v s.origin) = true
      then pure .dead
      else exitValue (env.graph.nodes.size + 1) a : Capturing ExitValue)) c env s = _ at h
  split at h
  · obtain ⟨_, s₁, h₁, -⟩ := capturing_lift_bind_ok h
    cases h₁
  next hlive =>
    have hpermitted : Permitted env s v a := fun hvalidate hv => by
      simpa [hvalidate, hv] using hlive
    rw [variableSource]
    split at h
    next hpruned =>
      cases h
      rw [if_pos (by simpa using hpruned)]
      exact ⟨[], .refl hk _, .nowhere, hpermitted⟩
    next hpruned =>
      rw [if_neg (by simpa using hpruned)]
      obtain ⟨K, hcollects, hx⟩ := exitValue_collects hk (by omega) h
      exact ⟨K, hcollects, hx, hpermitted⟩

/-- The captured value that the profile is to record, as a value to read. -/
def profileReads (i : Option Nat) : List ExitValue := i.toList.map fun i => .argument i .jsValue

/-- The register whose value the profile is to record is captured at its place. -/
def Profiles (c : Capture) : Option Reg → Option Nat → Prop
  | some r, some i => c.regs[i]? = some r
  | none, none => True
  | _, _ => False

theorem Profiles.mono {profile : Option Reg} {i : Option Nat} (h : Profiles c profile i)
    (hc : c.Sub c') :
    Profiles c' profile i := by
  cases profile with
  | none =>
    cases i with
    | none => trivial
    | some i => exact h
  | some r =>
    cases i with
    | none => exact h
    | some i => exact hc.regs i r h

theorem sourceOf_unavailable : sourceOf env s .unavailable = .nowhere := rfl

theorem variableSource_unavailable (v : Operand) :
    variableSource env s v .unavailable = .nowhere := by
  rw [variableSource, sourceOf_unavailable, ite_self]

/-- Exit `e`, built in `s`, and what was captured and put aside for it up to `s'`. -/
structure Records (env : Env) (kind : ExitKind) (profile : Option Reg) (s : State)
    (K : List (Reg × Int64)) (c : Capture) (e : OsrExit) (s' : State) : Prop where
  kind : e.kind = kind
  origin : e.origin = s.origin
  profiled : Profiles c profile e.profileValue
  shape : e.values.Shaped env.graph.numArguments env.graph.numLocals
  values : ∀ v x, e.values.get? v = some x →
    Realizes K c (variableSource env s v (s.availability.get v)) x
  permitted : ∀ v a, s.availability.operands.get? v = some a → Permitted env s v a
  collects : ∃ xs, Collects env {} s (profileReads e.profileValue ++ xs) K c s' ∧
    (s.availability.operands.Shaped env.graph.numArguments env.graph.numLocals → ∀ x ∈ xs, ∃ v,
      e.values.get? v = some x)

/-- The record of an exit. -/
theorem buildExit_records {kind : ExitKind} {profile : Option Reg} {id : ExitId} {regs : List Reg}
    (h : buildExit kind profile env s = .ok ((id, regs), s')) :
    ∃ K c e s₁, Records env kind profile s K c e s₁ ∧ id = ⟨s₁.exits.exits.size⟩ ∧
      regs = c.regs.toList ∧
      s' = { s₁ with exits := (s₁.exits.pushExit e).2, stats.exits := s₁.stats.exits + 1 } := by
  rw [buildExit, get_bind] at h
  obtain ⟨⟨⟨profileValue, values⟩, c⟩, s₁, hb, h⟩ := bind_ok h
  cases h
  -- the profiled register comes first
  obtain ⟨c₀, hprofiled, hfirst, hvalues⟩ : ∃ c₀, Profiles c₀ profile profileValue ∧
      Collects env {} s (profileReads profileValue) [] c₀ s ∧
      (s.availability.operands.toList.mapM fun p => (do return (p.1, ← exitVariable p.1 p.2) :
        Capturing (Operand × ExitValue))) c₀ env s = .ok ((values, c), s₁) := by
    have hkeyed : Capture.Keyed env s.exits {} := ⟨.nil, by simp, .nil, by simp⟩
    cases profile with
    | none =>
      obtain ⟨_, _, _, h₁, h₂⟩ := capturing_bind_ok hb
      cases h₁
      obtain ⟨values', c', s', h₃, h₄⟩ := capturing_bind_ok h₂
      cases h₄
      exact ⟨{}, trivial, .refl hkeyed _, h₃⟩
    | some r =>
      obtain ⟨i, c₀, s₀, h₀, hb⟩ := capturing_bind_ok hb
      obtain ⟨_, _, _, h₁, h₂⟩ := capturing_bind_ok hb
      cases h₁
      obtain ⟨values', c', s', h₃, h₄⟩ := capturing_bind_ok h₂
      cases h₄
      obtain ⟨rfl, hbuilt, hsub, hi, hnew⟩ := capture_ok h₀
      refine ⟨c₀, hi, .of_regs (.refl _) (.refl _) rfl rfl rfl hsub hbuilt hkeyed
        fun k hk₁ hk₂ => ?_, h₃⟩
      rw [hnew k hk₁ hk₂]
      exact ⟨_, List.mem_singleton_self _, List.mem_singleton_self _⟩
  obtain ⟨K, hcollects, hpermitted, hsources⟩ :=
    mapM_collects (k := fun (p : Operand × Availability) => p.1)
    (g := fun s p => variableSource env s p.1 p.2) (P := fun s p => Permitted env s p.1 p.2) (n :=
      0)
    (fun p hs => variableSource_congr hs p.1 p.2) (fun p hs hp hvalidate hv => hp hvalidate
      (hs.origin ▸ hv))
    (fun p c s q c' s' hk _ h => by
      obtain ⟨x, c₁, s₁, h₁, h⟩ := capturing_bind_ok h
      cases h
      obtain ⟨K, hcollects, hx, hpermitted⟩ := exitVariable_collects hk h₁
      exact ⟨K, hcollects, rfl, hx, hpermitted⟩) hfirst.keyed (Nat.zero_le _) hvalues
  have hkeys : values.map Prod.fst = s.availability.operands.toList.map Prod.fst :=
    (List.forall₂_eq_eq_eq ▸ List.forall₂_map_left_iff.2
      (List.forall₂_map_right_iff.2 (hsources.flip.imp fun _ _ hp => hp.1)))
  have hnodup : (values.map Prod.fst).Nodup := hkeys ▸ Operands.nodup_toList _
  have hshaped := Operands.Shaped.setAll values (o :=
    .replicate env.graph.numArguments env.graph.numLocals ExitValue.dead)
    ⟨Array.size_replicate, Array.size_replicate⟩
  refine ⟨K, c, _, s₁, ⟨rfl, rfl, hprofiled.mono hcollects.sub, hshaped, fun v x hv => ?_,
    fun v a ha => hpermitted (v, a) (Operands.mem_toList.2 ha), values.map Prod.snd,
    hfirst.append hcollects,
    fun hshape x hx => ?_⟩, rfl, rfl, rfl⟩
  · by_cases hmem : v ∈ values.map Prod.fst
    · obtain ⟨⟨v, y⟩, hy, rfl⟩ := List.mem_map.1 hmem
      obtain ⟨⟨w, a⟩, ha, hva, hy'⟩ := exists_of_forall₂ hsources hy
      obtain rfl : v = w := hva
      have hget :=
        Operands.get?_setAll values (.replicate env.graph.numArguments env.graph.numLocals
          ExitValue.dead) hnodup hy
      obtain ⟨_, -, rfl⟩ := Option.map_eq_some_iff.1 (hget.symm.trans hv)
      have hav : s.availability.get v = a := by
        rw [AvailabilityMap.get, Operands.mem_toList.1 ha]
        rfl
      rw [hav]
      exact hy'
    · have hget := Operands.get?_setAll_of_notMem values
        (.replicate env.graph.numArguments env.graph.numLocals ExitValue.dead) hmem
      obtain rfl : x = .dead := Operands.get?_replicate (hget.symm.trans hv)
      have hav : s.availability.get v = .unavailable := by
        cases hv : s.availability.operands.get? v with
        | none => rw [AvailabilityMap.get, hv]; rfl
        | some a => exact absurd (hkeys ▸ List.mem_map_of_mem (Operands.mem_toList.2 hv)) hmem
      rw [hav, variableSource_unavailable]
      exact .nowhere
  · obtain ⟨⟨v, x⟩, hp, rfl⟩ := List.mem_map.1 hx
    obtain ⟨⟨w, a⟩, ha, hva, -⟩ := exists_of_forall₂ hsources hp
    obtain rfl : v = w := hva
    have hget :=
      Operands.get?_setAll values (.replicate env.graph.numArguments env.graph.numLocals
        ExitValue.dead) hnodup hp
    obtain ⟨y, hy⟩ :=
      Operands.get?_of_shaped (p := .replicate env.graph.numArguments env.graph.numLocals
        ExitValue.dead)
      hshape ⟨Array.size_replicate, Array.size_replicate⟩ (Operands.mem_toList.1 ha)
    exact ⟨v, hget.trans (by rw [hy]; rfl)⟩

/-! ## How many values an exit captures -/

/-- A recorded value reads what is captured and the objects that were announced. -/
theorem Realizes.within {src : ExitSource} (h : Realizes K c src x) :
    x.Within c.regs.size fun m => ∃ id, (id, m) ∈ c.built := by
  have hlt {i : Nat} {r : Reg} (hi : c.regs[i]? = some r) : i < c.regs.size :=
    (Array.getElem?_eq_some_iff.1 hi).1
  refine ⟨fun k hk => ?_, fun m hm => ?_⟩
  · cases h with
    | register hi =>
      rw [List.mem_singleton.1 hk]
      exact hlt hi
    | sum _ _ hi hj =>
      rcases List.mem_cons.1 hk with rfl | hk
      · exact hlt hi
      · rw [List.mem_singleton.1 hk]
        exact hlt hj
    | _ => cases hk
  · cases h with
    | object hid =>
      cases hm
      exact ⟨_, hid⟩
    | _ => cases hm

theorem mem_profileReads {i : Option Nat} :
    x ∈ profileReads i ↔ ∃ k, i = some k ∧ x = .argument k .jsValue := by
  cases i <;> simp [profileReads]

/-- An exit reads all that was captured for it. -/
theorem Records.measures {kind : ExitKind} {profile : Option Reg} {e : OsrExit}
    (h : Records env kind profile s K c e s')
    (hshape : s.availability.operands.Shaped env.graph.numArguments env.graph.numLocals) :
    s'.exits.Measures e c.regs.size := by
  obtain ⟨xs, hcollects, hxs⟩ := h.collects
  have hread : ∀ y ∈ profileReads e.profileValue ++ xs,
    (∃ i, e.profileValue = some i ∧ y = .argument i .jsValue) ∨
      ∃ v, e.values.get? v = some y := by
    intro y hy
    rcases List.mem_append.1 hy with hy | hy
    · exact .inl (mem_profileReads.1 hy)
    · exact .inr (hxs hshape y hy)
  refine ⟨fun i hi => ?_, ⟨fun m => ∃ id, (id, m) ∈ c.built, fun v y hy => (h.values v y hy).within,
    fun m hm => ?_⟩,
    fun i hi => ?_⟩
  · have hprofiled := h.profiled
    rw [hi] at hprofiled
    cases profile with
    | none => exact hprofiled.elim
    | some r => exact (Array.getElem?_eq_some_iff.1 hprofiled).1
  · obtain ⟨id, hid⟩ := hm
    obtain ⟨node, kind', record, -, -, hrecord, -, -, hfields⟩ :=
      ((hcollects.described _ hid).resolve_left (by simp)).2
    refine ⟨record, hrecord, fun p hp => ?_⟩
    obtain ⟨f, -, -, hf⟩ := exists_of_forall₂ hfields hp
    exact hf.within
  · rcases hcollects.mentioned i (Nat.zero_le _) hi with ⟨y, hy, hiy⟩ | ⟨m, record, hm, hrecord, hp⟩
    · rcases hread y hy with ⟨k, hk, rfl⟩ | ⟨v, hv⟩
      · rw [List.mem_singleton.1 hiy]
        exact .inr (.inl hk)
      · exact .inl ⟨v, y, hv, hiy⟩
    · obtain ⟨-, y, hy, d, hd, hreach⟩ :=
        hcollects.reached m hm (Array.getElem?_eq_some_iff.1 hrecord).1
      rcases hread y hy with ⟨k, -, rfl⟩ | ⟨v, hv⟩
      · cases hd
      · exact .inr (.inr ⟨d, List.mem_filterMap.2 ⟨(v, y), Operands.mem_toList.2 hv, hd⟩, m, record,
          hreach, hrecord, hp⟩)

end Lowering

end SpecJit
