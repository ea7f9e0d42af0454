import SpecJit.Proofs.Lowering.NewObjects

/-!
# Allocations stay inside of what they allocate

The nodes that make objects, arrays and activations in place: every store of their code is inside of
a piece of memory that the code asked for, and it stores into every slot, every length and every
field that is listed (`allocations_inside`). For objects that takes a cell without a slot that has
the number of a property out of line: such a slot is not in the cell, and what should be stored
there is stored in front of it (`slot_before_cell`).
-/

namespace SpecJit.Lowering

open Lir

/-! ## Steps that change nothing that the lowering knows -/

/-! ## What is allocated -/

section

variable {σ : Type} {m : Machine σ} {layout : ObjectLayout} {env : Env} {x a w p : Word}
  {before after : Memory} {s s' s₁ s₂ s₃ : State} {c c' : Config σ} {id sid : NodeId} {node : Node}
  {r scope current : Reg} {values : List Reg} {ws : List Word}

/-- Between two states of memory the pieces were asked for; whatever was stored is inside of one of
them, and what is listed was stored. -/
def Allocated (m : Machine σ) (layout : ObjectLayout) (x : Word) (before after : Memory)
    (ps : List Piece) (marks : List Stored) : Prop :=
  ∃ xs, History m layout x before ps xs after ∧ (∀ y ∈ xs, ∃ p ∈ ps, y.Inside p) ∧ marks ⊆ xs

/-- The word is an object of the structure with the fields. -/
def ObjectMade (m : Machine σ) (layout : ObjectLayout) (x : Word) (t : Structure)
    (fields : List (PromotedLocation × Word)) (before : Memory) (w : Word) (after : Memory) :
    Prop :=
  ∃ base, Allocated m layout x before after (⟨w, layout.objectBytes t⟩ :: storagePieces t base)
    (objectStores layout t w base fields)

/-- The word is an array with the elements: one of the runtime if they are too many, and otherwise
one that was made in place. -/
def ArrayMade (m : Machine σ) (env : Env) (x : Word) (data : NewArrayData) (ws : List Word)
    (before : Memory) (w : Word) (after : Memory) : Prop :=
  if env.options.maxInlineArrayAllocation < ws.length then
    ∃ v, Allocated m env.layout x before after [⟨v, 8 * ws.length⟩] (elementStores v ws)
  else ∃ t base, env.graph.structures.get? data.structureId = some t ∧
    Allocated m env.layout x before after [⟨w, env.layout.objectBytes t⟩, ⟨base, 8 + 8 * ws.length⟩]
      (inlineSlots env.layout t w ++ lengths env.layout (displace base 8) ws.length ++
        elementStores (displace base 8) ws)

/-- The word is an activation of the structure below a scope, with the fields. -/
def ActivationMade (m : Machine σ) (layout : ObjectLayout) (x : Word) (t : Structure) (scope : Word)
    (fields : List (PromotedLocation × Word)) (before : Memory) (w : Word) (after : Memory) :
    Prop :=
  Allocated m layout x before after [⟨w, activationBytes layout t⟩]
    (activationStores layout t w scope ++ fields.flatMap (scopeFieldStore layout w))

/-! ## Results -/

/-- The node is held, in a register with a word that is, with the memory, as `R` says. -/
def NodeHolds (id : NodeId) (R : Word → Memory → Prop) (_ : Unit) (s : State) (c : Config σ) :
    Prop :=
  ∃ form r, s.values.lookup (id, form) = some (r, s.block) ∧ InRegister .i64 R r s.builder c

theorem setResult_holds {L : Set Word} {R : Word → Memory → Prop} (hdepth : s.armDepth = 0)
    (hr : InRegister .i64 R r s.builder c) :
    Proceeds m L env s c (setResult id r) (.ok (NodeHolds id R)) := by
  intro s₁ s' u c₁ hsame hf hc h hm
  obtain ⟨node, -, h'⟩ := getNode_bind_ok h
  cases hform : node.result.form? with
  | none =>
    rw [hform] at h'
    cases h'
  | some form =>
    rw [hform] at h'
    obtain rfl : { s₁ with values := ((id, form), r, s₁.block) :: s₁.values } = s' := by
      cases h'
      exact (if_pos (hsame.armDepth.trans hdepth)).symm
    obtain ⟨w, hr, hw⟩ := hr
    refine .refl hc ⟨form, r, by simp, w, hr.later hf, ?_⟩
    rw [hf.memory]
    exact hw

/-- Control stands where the uses of an allocation were read, and the context is in its register. -/
structure AtAllocation (m : Machine σ) (env : Env) (x : Word) (s : State) (c : Config σ) :
    Prop where
  stands : m.At s.builder c
  context : c.Has s.builder env.context .i64 x
  depth : s.armDepth = 0
  layout : env.layout.KeepsFields

/-- From where its uses were read the code comes to its end. The node is held, and its word and the
memory are as `R` says. -/
def Makes (m : Machine σ) (s s' : State) (c : Config σ) (id : NodeId) (R : Word → Memory → Prop) :
    Prop :=
  Course m .univ s s' c () (.ok (NodeHolds id R))

/-- Code that builds an object in a register, which is the result of the node. -/
theorem Proceeds.made {f : Lower Reg} [Tidy f] [Quiet f] {R : Word → Memory → Prop}
    (hx : AtAllocation m env x s c)
    (hf : Builds m x env s.builder c f fun r b' c' ps xs => ∃ a, c'.Has b' r .i64 a ∧
      ∀ {after}, History m env.layout x c.memory ps xs after → R a after) :
    Proceeds m .univ env s c (f >>= setResult id) (.ok (NodeHolds id R)) := by
  refine .act hf fun {r s' c'} hsame e hregs h => ?_
  obtain ⟨ps, xs, hhistory, a, ha, hR⟩ := h
  exact setResult_holds (hsame.armDepth.trans hx.depth) ⟨a, ha, hR hhistory⟩

/-! ## Objects -/

theorem newObject_made {structureId : StructureId} (hop : node.op = .newObject structureId)
    (h : lowerOp id node env s = .ok ((), s'))
    (hm : s'.builder.Completes m.func) (hx : AtAllocation m env x s c)
    (hfew : ∀ t, env.graph.structures.get? structureId = some t →
      t.inlineCapacity ≤ PropertyOffset.firstOutOfLine) :
    Makes m s s' c id fun w after => ∃ t, env.graph.structures.get? structureId = some t ∧
      Allocated m env.layout x c.memory after [⟨w, env.layout.objectBytes t⟩]
        (inlineSlots env.layout t w) := by
  have hlower : lowerOp id node = lowerNewObject id structureId := by simp only [lowerOp, hop]
  rw [hlower, lowerNewObject] at h
  obtain ⟨t, s₁, hlookup, hrest⟩ := bind_ok h
  obtain ⟨rfl, ht⟩ := getStructure_ok hlookup
  refine Proceeds.made hx ?_ (.refl s₁) (.refl _ _) hx.stands hrest hm
  refine (allocateObject_builds hx.layout (hfew t ht) hx.context).mono ?_
  rintro r b' c' ps xs ⟨a, ha, rfl, hin, hslots⟩
  exact ⟨a, ha, fun hhistory => ⟨t, ht, xs, hhistory, fun y hy => ⟨_, List.mem_singleton_self _,
    hin y hy⟩, hslots⟩⟩

/-- The structures that are looked up are those of the graph. -/
theorem getStructures_ok {ids : List StructureId} {ts : List Structure}
    (h : ids.mapM getStructure env s = .ok (ts, s')) :
    s' = s ∧ ts.length = ids.length ∧ ∀ t ∈ ts, ∃ sid ∈ ids, env.graph.structures.get?
      sid = some t := by
  induction ids generalizing ts s with
  | nil =>
    cases h
    exact ⟨rfl, rfl, nofun⟩
  | cons sid ids ih =>
    rw [List.mapM_cons] at h
    obtain ⟨t, s₁, h₁, hrest⟩ := bind_ok h
    obtain ⟨rfl, ht⟩ := getStructure_ok h₁
    obtain ⟨ts', s₂, h₂, hpure⟩ := bind_ok hrest
    cases hpure
    obtain ⟨rfl, hlength, hts⟩ := ih h₂
    refine ⟨rfl,
      by simp [hlength], List.forall_mem_cons.2 ⟨⟨sid, List.mem_cons_self, ht⟩, fun t' ht' => ?_⟩⟩
    obtain ⟨sid', hsid', hget⟩ := hts t' ht'
    exact ⟨sid', List.mem_cons_of_mem _ hsid', hget⟩

theorem materializeAs_made {b : Builder} {t : Structure} {locations : List PromotedLocation}
    (hlayout : env.layout.KeepsFields) (ht : t.Orderly) (hx : c.Has b env.context .i64 x)
    (hvalues : HoldAll b c values ws) :
    Builds m x env b c (materializeAs t locations values) fun r b' c' ps xs => ∃ a,
      c'.Has b' r .i64 a ∧
      ∀ {after}, History m env.layout x c.memory ps xs after → ObjectMade m env.layout x t
        (locations.zip ws) c.memory a after := by
  refine (materializeAs_builds hlayout ht hx hvalues).mono ?_
  rintro r b' c' ps xs ⟨a, base, ha, rfl, hin, hmarks⟩
  exact ⟨a, ha, fun hhistory => ⟨base, xs, hhistory, hin, hmarks⟩⟩

theorem materializeOne_made {data : MaterializeData} (hop : node.op = .materializeNewObject data)
    (hone : data.structures.ids.length = 1) (h : lowerOp id node env s = .ok ((), s'))
    (hm : s'.builder.Completes m.func) (hread : fieldValues node env s = .ok (values, s₁))
    (hx : AtAllocation m env x s₁ c) (hvalues : HoldAll s₁.builder c values ws)
    (hts : ∀ sid ∈ data.structures.ids, ∀ t, env.graph.structures.get? sid = some t → t.Orderly) :
    Makes m s₁ s' c id fun w after => ∃ sid ∈ data.structures.ids, ∃ t, env.graph.structures.get?
      sid = some t ∧
      ObjectMade m env.layout x t (data.locations.zip ws) c.memory w after := by
  have hlower : lowerOp id node = lowerMaterializeNewObject id node data := by
    simp only [lowerOp, hop]
  rw [hlower, lowerMaterializeNewObject, bind_of_ok hread] at h
  obtain ⟨ts, s₂, hlookup, hrest⟩ := bind_ok h
  obtain ⟨rfl, hlength, hfound⟩ := getStructures_ok hlookup
  obtain ⟨t, rfl⟩ := List.length_eq_one_iff.1 (hlength.trans hone)
  obtain ⟨sid, hsid, ht⟩ := hfound t (List.mem_singleton_self t)
  refine Proceeds.made hx ?_ (.refl s₂) (.refl _ _) hx.stands hrest hm
  refine (materializeAs_made hx.layout (hts sid hsid t ht) hx.context hvalues).mono ?_
  rintro r b' c' ps xs ⟨a, ha, hmade⟩
  exact ⟨a, ha, fun hhistory => ⟨sid, hsid, t, ht, hmade hhistory⟩⟩

theorem materializeMany_made {data : MaterializeData} {e : Edge} {v : Word}
    (hop : node.op = .materializeNewObject data) (hmany : 1 < data.structures.ids.length)
    (h : lowerOp id node env s = .ok ((), s')) (hm : s'.builder.Completes m.func)
    (hread : fieldValues node env s = .ok (values, s₁)) (hchild : node.child 0 = .ok e)
    (hread' : asInt32 e env s₁ = .ok (current, s₂)) (hx : AtAllocation m env x s₂ c)
    (hcurrent : c.Has s₂.builder current .i32 v) (hvalues : HoldAll s₂.builder c values ws)
    (hts : ∀ sid ∈ data.structures.ids, ∀ t, env.graph.structures.get? sid = some t → t.Orderly) :
    Makes m s₂ s' c id fun w after => ∃ sid ∈ data.structures.ids, ∃ t, env.graph.structures.get?
      sid = some t ∧
      ObjectMade m env.layout x t (data.locations.zip ws) c.memory w after := by
  have hlower : lowerOp id node = lowerMaterializeNewObject id node data := by
    simp only [lowerOp, hop]
  rw [hlower, lowerMaterializeNewObject, bind_of_ok hread] at h
  obtain ⟨ts, s₃, hlookup, hrest⟩ := bind_ok h
  obtain ⟨rfl, hlength, hfound⟩ := getStructures_ok hlookup
  rcases ts with _ | ⟨k, _ | ⟨k', rest⟩⟩
  · simp only [List.length_nil] at hlength
    omega
  · simp only [List.length_cons, List.length_nil] at hlength
    omega
  obtain ⟨e', he, hrest⟩ := check_bind_ok hrest
  obtain rfl := Except.ok.inj (hchild.symm.trans he)
  rw [bind_of_ok hread'] at hrest
  -- some case is taken, and each of them is one of the structures
  let passes (t : Structure) : Bool :=
    IntCC.eq.eval .i32 v (Ty.i32.normalize (Int64.ofInt t.id.index).toUInt64)
  obtain ⟨t, htaken⟩ : ∃ t, chosen true passes (k :: k' :: rest) = some t :=
    Option.isSome_iff_exists.1 (chosen_isSome (List.cons_ne_nil _ _))
  let R (t : Structure) (w : Word) (after : Memory) : Prop := ∃ sid ∈ data.structures.ids,
    env.graph.structures.get? sid = some t ∧
    ObjectMade m env.layout x t (data.locations.zip ws) c.memory w after
  have hproceeds : Proceeds m .univ env s₂ c (do
      let join ← Emit.createBlock false
      let result ← Emit.blockParam join .i64
      let current ← (pure current : Lower Reg)
      inArm (dispatch join true (fun s => Emit.icmpImm .eq current s.id.index)
        (fun s => return [← materializeAs s data.locations values]) (pure ()) (k :: k' :: rest))
      Emit.switchTo join
      setResult id result) (Except.map (fun t => NodeHolds id (R t)) (.ok t)) := by
    refine Proceeds.rejoinWith (.pure fun hf => ⟨v, hcurrent.later hf, rfl, hf.memory⟩)
      (fun {p r result b' c'} hf hr hresult => ?_)
      fun {t s' c' result} _ hsame _ _ hr => setResult_holds (hsame.armDepth.trans hx.depth) hr
    have hdispatch : Departs m .univ env b' c' p [result]
      (dispatch p true (fun s : Structure => Emit.icmpImm .eq r s.id.index)
        (fun s => return [← materializeAs s data.locations values]) (pure ()) (k :: k' :: rest))
        ((outcome .badCache (chosen true passes (k :: k' :: rest))).map fun t => Handed result
          (R t)) := by
      refine dispatch_departs (fun t _ => .ofEmit (Emit.icmpImm_yieldsIn hr)) (fun t ht => ?_)
        (fun hnone => ?_) (by simp)
      · obtain ⟨sid, hsid, hget⟩ := hfound t ht
        have hmade : Builds m x env b' c' (materializeAs t data.locations values) _ :=
          materializeAs_made hx.layout (hts sid hsid t hget) (hx.context.later hf)
            (hvalues.later hf)
        refine Acts.departsWith (Acts.bind hmade fun {r₁ b₁ c₁} _ _ h₁ => .pure fun hf' => ?_)
          hresult
        obtain ⟨ps, xs, hhistory, a, ha, hobject⟩ := h₁
        refine ⟨r₁, rfl, a, ha.later hf', sid, hsid, hget, ?_⟩
        rw [hf'.memory, ← hf.memory]
        exact hobject hhistory
      · rw [htaken] at hnone
        cases hnone
    rw [htaken] at hdispatch
    exact hdispatch
  simp only [pure_bind] at hproceeds
  refine Machine.Does.mono (hproceeds (.refl s₂) (.refl _ _) hx.stands hrest hm)
    fun c' _ _ hheld => ?_
  obtain ⟨form, r, hheld, w, hw, sid, hsid, hget, hmade⟩ := hheld
  exact ⟨form, r, hheld, w, hw, sid, hsid, t, hget, hmade⟩

/-! ## Arrays -/

/-- A new array with its elements. -/
def buildArray (data : NewArrayData) (shape : ArrayType) (values : List Reg) : Lower Reg := do
  let (array, butterfly) ← allocateArray data values.length
  storeElements shape butterfly values
  return array

instance {R : Law} [R.Codes] (data : NewArrayData) (shape : ArrayType) :
    Obeys R (buildArray data shape values) := by
  unfold buildArray
  infer_instance

theorem buildArray_made {b : Builder} {data : NewArrayData} {shape : ArrayType}
    (hlayout : env.layout.KeepsFields)
    (hfew : ∀ t, env.graph.structures.get? data.structureId = some t →
      t.inlineCapacity ≤ PropertyOffset.firstOutOfLine)
    (hx : c.Has b env.context .i64 x) (hvalues : HoldAll b c values ws) :
    Builds m x env b c (buildArray data shape values) fun r b' c' ps xs => ∃ a, c'.Has b' r .i64 a ∧
      ∀ {after}, History m env.layout x c.memory ps xs after → ArrayMade m env x data ws c.memory a
        after := by
  refine Acts.ofRun fun {s r s'} hrun => ?_
  have hlength : values.length = ws.length := hvalues.length_eq
  have hsmall : values.length ≤ 2 ^ 28 := by
    obtain ⟨_, _, -, hrun⟩ := bind_ok hrun
    obtain ⟨_, _, hstores, -⟩ := bind_ok hrun
    exact storeElements_small hstores
  unfold buildArray
  refine Builds.bind (allocateArray_builds hlayout hfew hsmall hx)
    fun {r₁ b₁ c₁ ps₁ xs₁} e₁ hregs₁ h₁ => ?_
  obtain ⟨array, butterfly⟩ := r₁
  obtain ⟨a, v, ha, hv, harray⟩ := h₁
  rw [hlength] at harray hsmall
  refine .bind (storeElements_fills hsmall hv (hvalues.retain e₁ hregs₁))
    fun {_ b₂ c₂ ps₂ xs₂} e₂ hregs₂ ⟨hps₂, hin₂, hmarks⟩ => .pure fun hf => ?_
  refine ⟨a, (ha.retain e₂ hregs₂).later hf, fun hhistory => ?_⟩
  rw [hps₂, List.nil_append, List.append_nil, List.append_nil] at hhistory
  unfold ArrayMade
  split at harray
  case isTrue hlong =>
    obtain ⟨rfl, rfl⟩ := harray
    rw [if_pos hlong]
    exact ⟨v, _, hhistory, fun y hy => ⟨_, List.mem_singleton_self _, hin₂ y hy⟩, hmarks⟩
  case isFalse hshort =>
    obtain ⟨t, base, ht, rfl, rfl, hin₁, hstores⟩ := harray
    rw [if_neg hshort]
    have hinside {y : Stored} {lo hi : Int} (hy : y.In (displace base 8) lo hi) (hlo : -8 ≤ lo)
      (hhi : hi ≤ 8 * ws.length) :
        y.Inside ⟨base, 8 + 8 * ws.length⟩ := hy.inside (by omega) (by omega)
    refine ⟨t, base, ht, _, hhistory, fun y hy => ?_, List.append_subset.2
      ⟨List.subset_append_of_subset_left _ hstores, List.subset_append_of_subset_right _ hmarks⟩⟩
    rcases List.mem_append.1 hy with hy | hy
    · rcases hin₁ y hy with hy | hy
      · exact ⟨_, List.mem_cons_self, hy⟩
      · exact ⟨_, List.mem_cons_of_mem _ (List.mem_singleton_self _),
          hinside hy (by omega) (by omega)⟩
    · exact ⟨_, List.mem_cons_of_mem _ (List.mem_singleton_self _), hinside (hin₂ y hy) (by omega)
        (by omega)⟩

theorem newArray_made {data : NewArrayData} {shape : ArrayType} (hop : node.op = .newArray data)
    (h : lowerOp id node env s = .ok ((), s')) (hm : s'.builder.Completes m.func)
    (hshape : elementShape data env s = .ok (shape, s))
    (hread : (node.children.mapM fun e => butterflyStoreValue e shape) env s = .ok (values, s₁))
    (hx : AtAllocation m env x s₁ c)
    (hvalues : HoldAll s₁.builder c values ws)
    (hfew : ∀ t, env.graph.structures.get? data.structureId = some t →
      t.inlineCapacity ≤ PropertyOffset.firstOutOfLine) :
    Makes m s₁ s' c id (ArrayMade m env x data ws c.memory) := by
  have hlower : lowerOp id node = lowerNewArray id node data := by simp only [lowerOp, hop]
  rw [hlower, lowerNewArray, bind_of_ok hshape, bind_of_ok hread] at h
  have hbuild : (do
      let (array, butterfly) ← allocateArray data values.length
      storeElements shape butterfly values
      setResult id array : Lower Unit) = buildArray data shape values >>= setResult id := by
    simp only [buildArray, bind_assoc, pure_bind]
  rw [hbuild] at h
  exact Proceeds.made hx (buildArray_made hx.layout hfew hx.context hvalues) (.refl s₁) (.refl _ _)
    hx.stands h hm

/-! ## Activations -/

/-- A new activation with its fields. -/
def buildActivation (t : Structure) (scope : Reg) (locations : List PromotedLocation)
    (values : List Reg) : Lower Reg := do
  let activation ← allocateActivation t scope
  (locations.zip values).forM (storeScopeField activation)
  return activation

instance {R : Law} [R.Codes] (t : Structure) (locations : List PromotedLocation) :
    Obeys R (buildActivation t scope locations values) := by
  unfold buildActivation
  infer_instance

theorem buildActivation_made {b : Builder} {t : Structure} {locations : List PromotedLocation}
    {ty : Ty} (hlayout : env.layout.KeepsFields)
    (hindex : ∀ i, .closureVar i ∈ locations → i < t.inlineCapacity)
    (hx : c.Has b env.context .i64 x) (hscope : c.Has b scope ty p)
    (hvalues : HoldAll b c values ws) :
    Builds m x env b c (buildActivation t scope locations values) fun r b' c' ps xs => ∃ a,
      c'.Has b' r .i64 a ∧
      ∀ {after}, History m env.layout x c.memory ps xs after →
        ActivationMade m env.layout x t p (locations.zip ws) c.memory a after := by
  unfold buildActivation
  refine .bind (allocateActivation_builds hlayout hx hscope)
    fun {r b₁ c₁ ps₁ xs₁} e₁ hregs₁ ⟨hsmall, a, ha, hps₁, hin₁, hstores⟩ => ?_
  have hfields : Fills m x env b₁ c₁ ((locations.zip values).forM (storeScopeField r))
    (·.In a 0 (activationBytes env.layout t))
      ((locations.zip ws).flatMap (scopeFieldStore env.layout a)) := by
    refine .forM₂ ((hvalues.retain e₁ hregs₁).zip locations) ?_
    rintro ⟨_, r⟩ ⟨location, w⟩ hmem ⟨rfl, ty, hr⟩ b' c' e hregs
    refine storeScopeField_fills hlayout hsmall (fun i hi => ?_) (ha.retain e hregs)
      (hr.retain e hregs)
    exact hindex i (hi ▸ (List.of_mem_zip hmem).1)
  refine .bind hfields fun {_ b₂ c₂ ps₂ xs₂} e₂ hregs₂ ⟨hps₂, hin₂, hmarks⟩ => .pure fun hf => ?_
  refine ⟨a, (ha.retain e₂ hregs₂).later hf, fun hhistory => ?_⟩
  rw [hps₁, hps₂, List.append_nil, List.append_nil, List.append_nil] at hhistory
  refine ⟨_, hhistory, fun y hy => ⟨_, List.mem_singleton_self _, (List.mem_append.1 hy).elim
    (hin₁ y) (hin₂ y)⟩, List.append_subset.2
    ⟨List.subset_append_of_subset_left _ hstores, List.subset_append_of_subset_right _ hmarks⟩⟩

theorem createActivation_made {structureId : StructureId} {e : Edge}
    (hop : node.op = .createActivation structureId) (h : lowerOp id node env s = .ok ((), s'))
    (hm : s'.builder.Completes m.func) (hchild : node.child 0 = .ok e)
    (hread : asCell e env s = .ok (scope, s₁)) (hx : AtAllocation m env x s₁ c)
    (hscope : c.Has s₁.builder scope .i64 p) :
    Makes m s₁ s' c id fun w after => ∃ t, env.graph.structures.get? structureId = some t ∧
      ActivationMade m env.layout x t p [] c.memory w after := by
  have hlower : lowerOp id node = lowerCreateActivation id node structureId := by
    simp only [lowerOp, hop]
  rw [hlower, lowerCreateActivation] at h
  obtain ⟨e', he, h⟩ := check_bind_ok h
  obtain rfl := Except.ok.inj (hchild.symm.trans he)
  rw [bind_of_ok hread] at h
  obtain ⟨t, s₂, hlookup, hrest⟩ := bind_ok h
  obtain ⟨rfl, ht⟩ := getStructure_ok hlookup
  have hbuild : allocateActivation t scope = buildActivation t scope [] [] := by
    simp [buildActivation]
  rw [hbuild] at hrest
  refine Proceeds.made hx ?_ (.refl s₂) (.refl _ _) hx.stands hrest hm
  refine (buildActivation_made hx.layout (fun _ h => absurd h List.not_mem_nil) hx.context hscope
    .nil).mono ?_
  rintro r b' c' ps xs ⟨a, ha, hmade⟩
  exact ⟨a, ha, fun hhistory => ⟨t, ht, hmade hhistory⟩⟩

theorem materializeActivation_made {data : MaterializeData} {structureId : StructureId} {e : Edge}
    (hop : node.op = .materializeCreateActivation data)
    (honly : data.structures.only? = some structureId)
    (h : lowerOp id node env s = .ok ((), s')) (hm : s'.builder.Completes m.func)
    (hchild : node.child 0 = .ok e)
    (hread : asCell e env s = .ok (scope, s₁)) (hread' : fieldValues node env s₁ = .ok (values, s₂))
    (hx : AtAllocation m env x s₂ c)
    (hscope : c.Has s₂.builder scope .i64 p) (hvalues : HoldAll s₂.builder c values ws)
    (hindex : ∀ t, env.graph.structures.get? structureId = some t → ∀ i,
      .closureVar i ∈ data.locations → i < t.inlineCapacity) :
    Makes m s₂ s' c id fun w after => ∃ t, env.graph.structures.get? structureId = some t ∧
      ActivationMade m env.layout x t p (data.locations.zip ws) c.memory w after := by
  have hlower : lowerOp id node = lowerMaterializeActivation id node data := by
    simp only [lowerOp, hop]
  rw [hlower, lowerMaterializeActivation, honly] at h
  obtain ⟨e', he, h⟩ := check_bind_ok h
  obtain rfl := Except.ok.inj (hchild.symm.trans he)
  rw [bind_of_ok hread, bind_of_ok hread'] at h
  obtain ⟨t, s₃, hlookup, hrest⟩ := bind_ok h
  obtain ⟨rfl, ht⟩ := getStructure_ok hlookup
  change (allocateActivation t scope >>= fun activation =>
    (data.locations.zip values).forM (storeScopeField activation) >>= fun _ =>
      setResult id activation) env s₃ = _ at hrest
  have hbuild : (allocateActivation t scope >>= fun activation => (data.locations.zip values).forM
    (storeScopeField activation) >>= fun _ =>
      setResult id activation) = buildActivation t scope data.locations values >>=
        setResult id := by
    simp only [buildActivation, bind_assoc, pure_bind]
  rw [hbuild] at hrest
  refine Proceeds.made hx ?_ (.refl s₃) (.refl _ _) hx.stands hrest hm
  refine (buildActivation_made hx.layout (hindex t ht) hx.context hscope hvalues).mono ?_
  rintro r b' c' ps xs ⟨a, ha, hmade⟩
  exact ⟨a, ha, fun hhistory => ⟨t, ht, hmade hhistory⟩⟩

/-! ## All of them -/

/-- From where the uses were read, the code that makes an object, an array or an activation in place
comes to its end. It asks for the cell, and for storage of 8 bytes for each property out of line or
element and 8 bytes for the lengths. Every word that it stores is inside of what it asked for. It
stores into each slot of the cell, into both lengths, and into the place of each field that is
listed and each element. The structures of objects are orderly, and those of arrays and of objects
without fields do not have more slots than there are numbers for them. -/
theorem allocations_inside (h : lowerOp id node env s = .ok ((), s'))
    (hm : s'.builder.Completes m.func) :
    (∀ {structureId}, node.op = .newObject structureId → AtAllocation m env x s c →
      (∀ t, env.graph.structures.get? structureId = some t →
        t.inlineCapacity ≤ PropertyOffset.firstOutOfLine) →
      Makes m s s' c id fun w after => ∃ t, env.graph.structures.get? structureId = some t ∧
        Allocated m env.layout x c.memory after [⟨w, env.layout.objectBytes t⟩]
          (inlineSlots env.layout t w)) ∧
    (∀ {data shape values ws s₁}, node.op = .newArray data → elementShape data env s = .ok (shape,
      s) →
      (node.children.mapM fun e => butterflyStoreValue e shape) env s = .ok (values, s₁) →
      AtAllocation m env x s₁ c →
      HoldAll s₁.builder c values ws →
      (∀ t, env.graph.structures.get? data.structureId = some t →
        t.inlineCapacity ≤ PropertyOffset.firstOutOfLine) →
      Makes m s₁ s' c id (ArrayMade m env x data ws c.memory)) ∧
    (∀ {structureId e scope p s₁}, node.op = .createActivation structureId → node.child 0 = .ok e →
      asCell e env s = .ok (scope, s₁) →
      AtAllocation m env x s₁ c → c.Has s₁.builder scope .i64 p →
      Makes m s₁ s' c id fun w after => ∃ t, env.graph.structures.get? structureId = some t ∧
        ActivationMade m env.layout x t p [] c.memory w after) ∧
    (∀ {data values ws s₁}, node.op = .materializeNewObject data →
      fieldValues node env s = .ok (values, s₁) →
      (∀ sid ∈ data.structures.ids, ∀ t, env.graph.structures.get? sid = some t → t.Orderly) →
      (data.structures.ids.length = 1 → AtAllocation m env x s₁ c → HoldAll s₁.builder c values ws →
        Makes m s₁ s' c id fun w after => ∃ sid ∈ data.structures.ids, ∃ t,
        env.graph.structures.get? sid = some t ∧
          ObjectMade m env.layout x t (data.locations.zip ws) c.memory w after) ∧
      (∀ {e current v s₂}, 1 < data.structures.ids.length → node.child 0 = .ok e →
        asInt32 e env s₁ = .ok (current, s₂) →
        AtAllocation m env x s₂ c → c.Has s₂.builder current .i32 v → HoldAll s₂.builder c values
          ws →
        Makes m s₂ s' c id fun w after => ∃ sid ∈ data.structures.ids, ∃ t,
        env.graph.structures.get? sid = some t ∧
          ObjectMade m env.layout x t (data.locations.zip ws) c.memory w after)) ∧
    (∀ {data structureId e scope p values ws s₁ s₂}, node.op = .materializeCreateActivation data →
      data.structures.only? = some structureId → node.child 0 = .ok e →
      asCell e env s = .ok (scope, s₁) →
      fieldValues node env s₁ = .ok (values, s₂) → AtAllocation m env x s₂ c →
      c.Has s₂.builder scope .i64 p →
      HoldAll s₂.builder c values ws →
      (∀ t, env.graph.structures.get? structureId = some t → ∀ i, .closureVar i ∈ data.locations →
        i < t.inlineCapacity) →
      Makes m s₂ s' c id fun w after => ∃ t, env.graph.structures.get? structureId = some t ∧
        ActivationMade m env.layout x t p (data.locations.zip ws) c.memory w after) := by
  refine ⟨?_, ?_, ?_, ?_, ?_⟩
  · intro structureId hop hx hfew
    exact newObject_made hop h hm hx hfew
  · intro data shape values ws s₁ hop hshape hread hx hvalues hfew
    exact newArray_made hop h hm hshape hread hx hvalues hfew
  · intro structureId e scope p s₁ hop hchild hread hx hscope
    exact createActivation_made hop h hm hchild hread hx hscope
  · intro data values ws s₁ hop hread hts
    refine ⟨fun hone hx hvalues => materializeOne_made hop hone h hm hread hx hvalues hts, ?_⟩
    intro e current v s₂ hmany hchild hread' hx hcurrent hvalues
    exact materializeMany_made hop hmany h hm hread hchild hread' hx hcurrent hvalues hts
  · intro data structureId e scope p values ws s₁ s₂ hop honly hchild hread hread' hx hscope hvalues
      hindex
    exact materializeActivation_made hop honly h hm hchild hread hread' hx hscope hvalues hindex

end

/-! ## An object with a field in its cell and one in its storage -/

namespace TwoFields

open TwoArguments

def object : Structure where
  id := ⟨1⟩
  cellType := .finalObject
  inlineCapacity := 1
  properties := [⟨⟨0⟩, ⟨0⟩⟩, ⟨⟨1⟩, ⟨100⟩⟩]

def materialize : Node where
  op := .materializeNewObject ⟨⟨[⟨1⟩]⟩, [.namedProperty ⟨0⟩, .namedProperty ⟨1⟩]⟩
  result := .jsValue
  children := [{ node := ⟨0⟩ }, { node := ⟨0⟩ }, { node := ⟨1⟩ }]

def graph : Graph :=
  { TwoArguments.graph materialize .jsValue .jsValue with structures := .ofList [object] }

/-- The context, 5 and 7 are in registers. -/
def start (f : Function) : Config Unit where
  registers :=
    (((Array.replicate f.types.size none).setIfInBounds 0 (some 0x1000)).setIfInBounds 2
      (some (Value.boxInt32 5))).setIfInBounds
    3 (some (Value.boxInt32 7))
  memory := {}
  runtimeState := ()

theorem start_atAllocation {f : Function} (hf : 3 < f.types.size) :
    AtAllocation (Machine.plain f) (env graph) 0x1000 (before graph .jsValue) (start f) where
  stands := {
    wf := ⟨rfl, Nat.zero_lt_one⟩
    isOpen := rfl
    block := rfl
    position := fun blk hb => by cases hb; rfl
    registers := by simp [start, Machine.plain] }
  context := by
    have hpos : 0 < f.types.size := by omega
    refine ⟨rfl, ?_⟩
    simp [start, env, hpos]
  depth := rfl
  layout := ObjectLayout.keepsFields_standard

theorem start_holds {f : Function} (hf : 3 < f.types.size) :
    HoldAll (before graph .jsValue).builder (start f) [⟨2⟩, ⟨3⟩] [Value.boxInt32 5,
      Value.boxInt32 7] := by
  refine .cons ⟨.i64, rfl, ?_⟩ (.cons ⟨.i64, rfl, ?_⟩ .nil)
  · simp [start, Nat.lt_of_succ_lt hf]
  · simp [start, hf]

theorem object_orderly : object.Orderly where
  few := by decide
  inline := by decide
  outOfLine := by decide

end TwoFields

open TwoArguments TwoFields in
/-- The object has a cell of 24 bytes and storage of 40, and both fields are stored. -/
theorem allocations_inside_twoFields :
    ∃ s', lowerOp ⟨2⟩ materialize (env TwoFields.graph) (before TwoFields.graph .jsValue) = .ok ((),
      s') ∧
    Makes (Machine.plain s'.builder.func) (before TwoFields.graph .jsValue) s'
      (start s'.builder.func) ⟨2⟩
      fun w after =>
      ∃ base, Allocated (Machine.plain s'.builder.func) {} 0x1000 {} after [⟨w, 24⟩, ⟨base, 40⟩]
        [⟨displace w 16, 8, Value.undefined⟩, ⟨displace (displace base 40) (-8), 4, 0⟩,
          ⟨displace (displace base 40) (-4), 4, 0⟩,
          ⟨displace w 16, 8, Value.boxInt32 5⟩, ⟨displace (displace base 40) (-16), 8,
            Value.boxInt32 7⟩] := by
  have hcheck :
    ((lowerOp ⟨2⟩ materialize (env TwoFields.graph) (before TwoFields.graph .jsValue)).toOption.any
      fun r =>
      3 < r.2.builder.func.types.size) = true := by decide +kernel
  obtain ⟨⟨⟨⟩, s'⟩, h, hsize⟩ := ok_of_any hcheck
  rw [decide_eq_true_eq] at hsize
  have hget (t : Structure) (ht : TwoFields.graph.structures.get? ⟨1⟩ = some t) : t = object :=
    (Option.some.inj ht).symm
  obtain ⟨-, -, -, hobject, -⟩ := allocations_inside (m := Machine.plain s'.builder.func) (x :=
    0x1000) (c := start s'.builder.func) h
    s'.builder.completes_self
  have hread : fieldValues materialize (env TwoFields.graph) (before TwoFields.graph .jsValue) =
      .ok ([⟨2⟩, ⟨3⟩], before TwoFields.graph .jsValue) := rfl
  have hmakes := (hobject rfl hread (by
    intro sid hsid t ht
    obtain rfl := List.mem_singleton.1 hsid
    rw [hget t ht]
    exact object_orderly)).1 rfl (start_atAllocation hsize) (start_holds hsize)
  refine ⟨s', h, Machine.Does.mono hmakes fun c' _ _ hheld => ?_⟩
  obtain ⟨form, r, hlookup, w, hw, sid, hsid, t, ht, base, hmade⟩ := hheld
  obtain rfl := List.mem_singleton.1 hsid
  obtain rfl := hget t ht
  exact ⟨form, r, hlookup, w, hw, base, hmade⟩

/-! ## A slot that is not in its cell -/

/-- Returns a new object of a structure with 101 slots in the cell, and without properties. -/
def manySlots : Graph where
  name := "manySlots"
  nodes := #[
    { op := .newObject ⟨1⟩, result := .jsValue },
    { op := .ret, children := [{ node := ⟨0⟩ }] }]
  blocks := #[{ index := ⟨0⟩, nodes := #[⟨0⟩, ⟨1⟩] }]
  numArguments := 1
  numLocals := 0
  structures := .ofList [{ id := ⟨1⟩, cellType := .finalObject, inlineCapacity := 101 }]

deriving instance DecidableEq for Simulation.CallRecord

/-- How a simulated run of a graph on empty memory ends, its calls, and the word of an address at
its end. -/
def callsAndStored (g : Graph) (scripts : Simulation.Scripts) (a : Word) :
    Option (Option Outcome × List Simulation.CallRecord × Word) :=
  match g.lower {} {} with
  | .ok f =>
    let final := Simulation.run f.lir scripts 10000 {}
    some (final.result.toOption, final.runtimeState.log, final.memory.read a 8)
  | .error _ => none

/-- The runtime is asked for a cell of `0x338` bytes and answers `0x20000`. The word in front of it
is `undefined` in the end. -/
theorem slot_before_cell : manySlots.canCompile.isOk = true ∧
    callsAndStored manySlots { helpers := [(.allocateCell, [0x20000])] } 0x1fff0 =
      some (some (.returned 0x20000), [.helper .allocateCell [0x338]], Value.undefined) := by
  decide +kernel

end SpecJit.Lowering
