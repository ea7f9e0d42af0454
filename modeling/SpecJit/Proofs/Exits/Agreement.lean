import SpecJit.Proofs.Exits.Building
import SpecJit.Proofs.Exits.Table

/-!
# Twin exits resolve alike

The second of two twin exits is resolved, from captured values that are the same where they go
together. Then the first one is resolved, too, if it leaves out what is not live, and the frames
agree on what is live, up to the identity of the objects that were built
(`ExitTable.Twins.resolve`): objects that go together were built of the same kind, at the same
place, from fields that agree in the same way (`Corresponds`). Nothing is built for the first exit
that was not built for the second one.
-/

namespace SpecJit

/-- Two words are the same, or they are objects that go together. -/
inductive SameWord (M : MaterializationId → MaterializationId → Prop)
    (log log' : List (MaterializedFields × Word)) :
    Word → Word → Prop
  | same (w : Word) : SameWord M log log' w w
  | object {d d' : MaterializedFields} {w w' : Word} : (d, w) ∈ log → (d', w') ∈ log' →
    M d.id d'.id → SameWord M log log' w w'

/-- The objects that were built go together one to one: each one of the first list with one of the
second list that was built of the same kind, at the same place and from fields that agree. -/
structure Corresponds (M : MaterializationId → MaterializationId → Prop)
    (log log' : List (MaterializedFields × Word)) : Prop where
  unique : ∀ {m m' d d'}, M m m' → M d d' → (m = d ↔ m' = d')
  covered : ∀ {d w}, (d, w) ∈ log → ∃ d' w', (d', w') ∈ log' ∧ M d.id d'.id
  described : ∀ {d d' w w'}, (d, w) ∈ log → (d', w') ∈ log' → M d.id d'.id → d.kind = d'.kind ∧
    d.origin = d'.origin ∧
    List.Forall₂ (fun p p' => p.1 = p'.1 ∧ SameWord M log log' p.2 p'.2) d.fields d'.fields

variable {σ : Type} {C : Nat → Nat → Prop} {M : MaterializationId → MaterializationId → Prop}
  {t t' : ExitTable} {c c' : Captured} {cells cells' : Array (Option Word)}
  {log log' : List (MaterializedFields × Word)} {x x' : ExitValue} {w w' : Word}
  {m m' d : MaterializationId} {e e' : OsrExit} {live : Operand → Prop}

/-- The same frame, and the same captured values where they go together. -/
structure Captured.Alike (C : Nat → Nat → Prop) (c c' : Captured) : Prop where
  frame : c.frame = c'.frame
  values : ∀ {i i'}, C i i' → ∃ w, c.stackmap[i]? = some w ∧ c'.stackmap[i']? = some w

namespace ExitTable

theorem Captured.Alike.value (hc : c.Alike C c') {i i' : Nat} (hi : C i i') :
    ∃ w, c.value i = .ok w ∧ c'.value i' = .ok w := by
  obtain ⟨w, hw, hw'⟩ := hc.values hi
  exact ⟨w, by rw [Captured.value, hw], by rw [Captured.value, hw']⟩

/-- What twins are read as, but for objects. -/
theorem boxed_twin (h : x.Twin C M x') (hc : c.Alike C c') (hx : x.materialization? = none)
    (hw : c'.boxed cells' x' = .ok w) : c.boxed cells x = .ok w := by
  cases h with
  | dead | constant => exact hw
  | inStack slot format =>
    rw [Captured.boxed] at hw ⊢
    rw [hc.frame]
    split at hw
    · exact hw
    · cases hw
  | argument format hi =>
    obtain ⟨v, hv, hv'⟩ := Captured.Alike.value hc hi
    rw [Captured.boxed, hv'] at hw
    rw [Captured.boxed, hv]
    exact hw
  | recovery op format hi hj =>
    obtain ⟨v, hv, hv'⟩ := Captured.Alike.value hc hi
    obtain ⟨u, hu, hu'⟩ := Captured.Alike.value hc hj
    rw [Captured.boxed, hv', hu'] at hw
    rw [Captured.boxed, hv, hu]
    simp only [bind, Except.bind] at hw ⊢
    split at hw
    · exact hw
    · cases hw
  | materialize => cases hx

/-- A value whose twin can be read can be read itself. -/
theorem readable_twin (h : x.Twin C M x') (hc : c.Alike C c') (hw : c'.boxed cells' x' = .ok w) :
    Readable c x := by
  intro cells hbuilt
  cases hx : x.materialization? with
  | none => exact ⟨w, boxed_twin h hc hx hw⟩
  | some m =>
    obtain ⟨v, hv⟩ := hbuilt m hx
    cases h with
    | materialize =>
      cases hx
      exact ⟨v, boxed_materialize.2 hv⟩
    | _ => cases hx

/-- Twins are read as the same word, or as objects that go together. -/
theorem sameWord_twin (h : x.Twin C M x') (hc : c.Alike C c') (hcells : Constructed t c cells log)
    (hcells' : Constructed t' c' cells' log') (hw : c.boxed cells x = .ok w)
    (hw' : c'.boxed cells' x' = .ok w') :
    SameWord M log log' w w' := by
  cases hx : x.materialization? with
  | none =>
    obtain rfl := Except.ok.inj ((boxed_twin h hc hx hw').symm.trans hw)
    exact .same _
  | some m =>
    cases h with
    | materialize hm =>
      obtain ⟨d, rfl, hd⟩ := hcells.logged (boxed_materialize.1 hw)
      obtain ⟨d', rfl, hd'⟩ := hcells'.logged (boxed_materialize.1 hw')
      exact .object hd hd' hm
    | _ => cases hx

/-! ## Objects that go together -/

/-- What an object needs goes together with what its counterpart needs. -/
theorem SameObjects.needs (h : t.SameObjects t' C M) (hm : M m m') (hneeds : t.Needs m d) :
    ∃ d', M d d' ∧ t'.Needs m' d' := by
  obtain ⟨record, record', hrecord, hrecord', -, -, hfields⟩ := h.described hm
  obtain ⟨record₁, hrecord₁, hd⟩ := hneeds
  rw [hrecord] at hrecord₁
  cases hrecord₁
  obtain ⟨p, hp, hd⟩ := List.mem_filterMap.1 hd
  obtain ⟨p', hp', -, htwin⟩ := exists_mem_of_forall₂ hfields hp
  obtain ⟨location, x⟩ := p
  obtain ⟨location', x'⟩ := p'
  cases htwin with
  | @materialize _ d' hd' =>
    cases hd
    exact ⟨d', hd', record', hrecord', List.mem_filterMap.2 ⟨_, hp', rfl⟩⟩
  | _ => cases hd

/-- An object is not held by itself if its counterpart is not. -/
theorem SameObjects.acc (h : t.SameObjects t' C M) (hm : M m m')
    (hacc : Acc (fun d m => t'.Needs m d) m') :
    Acc (fun d m => t.Needs m d) m := by
  induction hacc generalizing m with
  | intro m' _ ih =>
    refine ⟨_, fun d hd => ?_⟩
    obtain ⟨d', hd', hneeds⟩ := h.needs hm hd
    exact ih d' hneeds hd'

/-- The objects of the first exit go together with objects that were built for the second one. -/
theorem SameObjects.corresponds (h : t.SameObjects t' C M) (hc : c.Alike C c')
    (hcells : Constructed t c cells log) (hcells' : Constructed t' c' cells' log')
    (hall : ∀ m, Built cells m → ∃ m', M m m' ∧ Built cells' m') :
    Corresponds M log log' where
  unique := h.unique
  covered {d w} hd := by
    obtain ⟨m', hm, w', hw'⟩ := hall d.id ⟨w, (hcells.described hd).1⟩
    obtain ⟨d', rfl, hd'⟩ := hcells'.logged hw'
    exact ⟨d', w', hd', hm⟩
  described {d d' w w'} hd hd' hm := by
    obtain ⟨record, record', hrecord, hrecord', hkind, horigin, hproperties⟩ := h.described hm
    obtain ⟨-, record₁, hrecord₁, hk, ho, hfields⟩ := hcells.described hd
    obtain ⟨-, record₁', hrecord₁', hk', ho', hfields'⟩ := hcells'.described hd'
    obtain rfl : record = record₁ := Option.some.inj (hrecord.symm.trans hrecord₁)
    obtain rfl : record' = record₁' := Option.some.inj (hrecord'.symm.trans hrecord₁')
    refine ⟨hk.trans (hkind.trans hk'.symm), ho.trans (horigin.trans ho'.symm),
      forall₂_square hproperties hfields hfields' fun hp hq hq' => ⟨?_, ?_⟩⟩
    · exact hq.1.symm.trans (hp.1.trans hq'.1)
    · exact sameWord_twin hp.2 hc hcells hcells' hq.2 hq'.2

/-! ## The frames -/

/-- What an object needs was built on the other side if its counterpart was. -/
theorem SameObjects.needs_built (h : t.SameObjects t' C M) (hcells' : Constructed t' c' cells' log')
    (hm : ∃ m', M m m' ∧ Built cells' m') (hneeds : t.Needs m d) :
    ∃ d', M d d' ∧ Built cells' d' := by
  obtain ⟨m', hm, hm'⟩ := hm
  obtain ⟨d', hd, hneeds'⟩ := h.needs hm hneeds
  exact ⟨d', hd, hcells'.needs hm' hneeds'⟩

/-- An object can be built if its counterpart was. -/
theorem SameObjects.buildable (h : t.SameObjects t' C M) (hc : c.Alike C c')
    (hcells' : Constructed t' c' cells' log') (hm : ∃ m', M m m' ∧ Built cells' m') :
    Buildable t c m := by
  obtain ⟨m', hm, hm'⟩ := hm
  obtain ⟨record, record', hrecord, hrecord', -, -, hfields⟩ := h.described hm
  obtain ⟨record₁, hrecord₁, hread⟩ := hcells'.reads hm'
  obtain rfl := Option.some.inj (hrecord'.symm.trans hrecord₁)
  refine ⟨record, hrecord, fun p hp => ?_⟩
  obtain ⟨p', hp', -, htwin⟩ := exists_mem_of_forall₂ hfields hp
  obtain ⟨w', hw'⟩ := hread p' hp'
  exact readable_twin htwin hc hw'

theorem profiled_twin {i i' : Option Nat} {o : Option Word} (hc : c.Alike C c')
    (h : List.Forall₂ C i.toList i'.toList) (ho : i'.mapM c'.value = .ok o) :
    i.mapM c.value = .ok o := by
  cases i with
  | none =>
    cases i' with
    | none => exact ho
    | some i' => cases h
  | some i =>
    cases i' with
    | none => cases h
    | some i' =>
      obtain ⟨w, hw, hw'⟩ := Captured.Alike.value hc (List.forall₂_cons.1 h).1
      simp only [Option.mapM_some, hw', hw] at ho ⊢
      exact ho

/-- A variable is restored in the same way by both exits, the second of which was resolved. -/
structure TwinAt (C : Nat → Nat → Prop) (M : MaterializationId → MaterializationId → Prop)
    (c' : Captured) (e' : OsrExit) (cells' : Array (Option Word)) (F' : ResolvedFrame) (v : Operand)
    (x x' : ExitValue) (w' : Word) : Prop where
  value : e'.values.get? v = some x'
  twin : x.Twin C M x'
  operand : F'.operands.get? v = some w'
  boxed : c'.boxed cells' x' = .ok w'

/-- The second exit is resolved; then so is the first one, and the frames agree (module doc). -/
theorem Twins.resolve (mat : Materializer σ) {s s' : σ} {F' : ResolvedFrame} {n k : Nat}
    (ht : t.Twins t' C live e e') (hc : c.Alike C c') (he : t.exit? c.exit = some e)
    (he' : t'.exit? c'.exit = some e') (hmeasures : t.Measures e c.stackmap.size)
    (hshaped : e.values.Shaped n k) (hshaped' : e'.values.Shaped n k)
    (hdead : ∀ v x, ¬ live v → e.values.get? v = some x → x = .dead)
    (hx' : t'.resolve mat.logged c' (s, []) = (.ok F', (s', log'))) :
    ∃ F s₁ log, t.resolve mat.logged c (s, []) = (.ok F, (s₁, log)) ∧ F.kind = F'.kind ∧
      F.origin = F'.origin ∧
      F.profiledValue = F'.profiledValue ∧ ∃ M, Corresponds M log log' ∧
        ∀ v, live v → SameWord M log log' (F.operand v) (F'.operand v) := by
  obtain ⟨hcheck', cells', hall', hframe'⟩ := (resolve_eq_ok_iff he').1 hx'
  obtain ⟨hcells', -⟩ := buildAll_ok rfl hall'
  have hF' := resolveFrame_ok hframe'
  obtain ⟨-, hargs', hlocals'⟩ := checkCaptured_ok_iff.1 hcheck'
  obtain ⟨M, hobjects, hvalues⟩ := ht.values
  -- what is live has a twin, and what is not is dead
  have hlive (v : Operand) (x : ExitValue) (hx : e.values.get? v = some x) :
      (∃ x' w', TwinAt C M c' e' cells' F' v x x' w') ∨ ¬ live v ∧ x = .dead := by
    by_cases hv : live v
    · obtain ⟨x', hx'⟩ := Operands.get?_of_shaped hshaped hshaped' hx
      obtain ⟨w', hw', hboxed⟩ := hF'.operands v x' hx'
      exact .inl ⟨x', w', hx', hvalues v x x' hv hx hx', hw', hboxed⟩
    · exact .inr ⟨hv, hdead v x hv hx⟩
  have hroots (r : MaterializationId) (hr : r ∈ e.materializationRoots) : ∃ r', M r r' ∧
    Built cells' r' := by
    obtain ⟨⟨v, x⟩, hx, hr⟩ := List.mem_filterMap.1 hr
    rcases hlive v x (Operands.mem_toList.1 hx) with ⟨x', w', h⟩ | ⟨-, rfl⟩
    · cases h.twin with
      | materialize hm =>
        cases hr
        exact ⟨_, hm, w', boxed_materialize.1 h.boxed⟩
      | _ => cases hr
    · cases hr
  have hreadable (v : Operand) (x : ExitValue) (hx : e.values.get? v = some x) : Readable c x := by
    rcases hlive v x hx with ⟨x', w', h⟩ | ⟨-, rfl⟩
    · exact readable_twin h.twin hc h.boxed
    · exact fun _ _ => ⟨_, rfl⟩
  -- the objects that are needed are those whose counterparts were built
  obtain ⟨cells, ⟨s₁, log⟩, hall, hbuilt, hcovered⟩ := buildAll_succeeds mat (t := t) (c := c) (e :=
    e) (s := (s, [])) rfl
    (fun m d hm hneeds => hobjects.needs_built hcells' hm hneeds) hroots
      (fun m hm => hobjects.buildable hc hcells' hm)
    fun m ⟨m', hm, hm'⟩ => hobjects.acc hm (hcells'.grounded hm')
  obtain ⟨hcells, -⟩ := buildAll_ok rfl hall
  obtain ⟨F, hframe⟩ :=
    resolveFrame_succeeds (c := c) (fun v x hx => hreadable v x hx cells fun d hd =>
    hbuilt d (List.mem_filterMap.2 ⟨(v, x), Operands.mem_toList.2 hx, hd⟩))
      (profiled_twin hc ht.profile hF'.profiled)
  have hF := resolveFrame_ok hframe
  have hcheck : t.checkCaptured c e = .ok () := by
    refine checkCaptured_ok_iff.2 ⟨?_, ?_, ?_⟩
    · rw [stackmapLength?_eq he hmeasures]
      exact Nat.le_refl _
    · rw [hc.frame, hargs', hshaped.1, hshaped'.1]
    · rw [hc.frame, hlocals', hshaped.2, hshaped'.2]
  have hprofiled := hF.profiled.symm.trans (profiled_twin hc ht.profile hF'.profiled)
  refine ⟨F, s₁, log, (resolve_eq_ok_iff he).2 ⟨hcheck, cells, hall, hframe⟩,
    hF.kind.trans (ht.kind.trans hF'.kind.symm),
    hF.origin.trans (ht.origin.trans hF'.origin.symm), Except.ok.inj hprofiled, M,
    hobjects.corresponds hc hcells hcells' hcovered, fun v hv => ?_⟩
  cases hx : e.values.get? v with
  | some x =>
    obtain ⟨w, hw, hboxed⟩ := hF.operands v x hx
    obtain ⟨x', w', h⟩ := (hlive v x hx).resolve_right fun hnot => hnot.1 hv
    rw [ResolvedFrame.operand, ResolvedFrame.operand, hw, h.operand]
    exact sameWord_twin h.twin hc hcells hcells' hboxed h.boxed
  | none =>
    rw [hF.outside hx, hF'.outside (Operands.get?_eq_none_of_shaped hshaped hshaped' hx)]
    exact .same _

end ExitTable

end SpecJit
