import SpecJit.Proofs.Lir.Yields
import SpecJit.Proofs.Lowering.Laws.Basic

/-!
# Lowering steps without control flow

`Quiet x`: the lowering step `x` changes no more of the state than the code, the tables of exits and
the counts. `Smooth x`: it is quiet, and the code that it adds is executed from its first
instruction to its last one. Building an exit is such a step: it adds constants at most. Smooth
steps are tidy.
-/

namespace SpecJit.Lowering

open Lir

variable {α β : Type} {env : Env} {s s' s'' : State}

/-- The state differs in the code, the exits and the counts only. -/
structure SameButCode (s s' : State) : Prop where
  facts : s'.facts = s.facts
  availability : s'.availability = s.availability
  values : s'.values = s.values
  block : s'.block = s.block
  armDepth : s'.armDepth = s.armDepth
  node : s'.node = s.node
  origin : s'.origin = s.origin
  upsilons : s'.upsilons = s.upsilons

theorem SameButCode.refl (s : State) : SameButCode s s := ⟨rfl, rfl, rfl, rfl, rfl, rfl, rfl, rfl⟩

theorem SameButCode.trans (h₁ : SameButCode s s') (h₂ : SameButCode s' s'') : SameButCode s s'' :=
  ⟨h₂.facts.trans h₁.facts, h₂.availability.trans h₁.availability, h₂.values.trans h₁.values,
    h₂.block.trans h₁.block, h₂.armDepth.trans h₁.armDepth, h₂.node.trans h₁.node,
    h₂.origin.trans h₁.origin,
    h₂.upsilons.trans h₁.upsilons⟩

/-! ## Steps that only add code -/

/-- Nothing changes that the lowering knows. -/
def quiet : Law where
  rel _ := SameButCode
  refl _ := .refl
  trans := .trans

/-- A step that changes nothing that the lowering knows. -/
abbrev Quiet (x : Lower α) : Prop := Obeys quiet x

theorem Quiet.same {x : Lower α} [hx : Quiet x] (env : Env) (s : State) (a : α) (s' : State)
    (h : x env s = .ok (a, s')) : SameButCode s s' := hx.of_ok h

instance : quiet.Uncoded where
  counts _ _ _ := ⟨rfl, rfl, rfl, rfl, rfl, rfl, rfl, rfl⟩
  arms h := ⟨h.facts, h.availability, h.values, h.block, by simp [h.armDepth], h.node, h.origin,
    h.upsilons⟩
  code _ _ _ := ⟨rfl, rfl, rfl, rfl, rfl, rfl, rfl, rfl⟩

/-! ## Steps without control flow -/

/-- The code between two states is executed as a whole. It loads nothing and leaves memory as it is.
-/
structure Straight (s s' : State) : Prop where
  emits : s.builder.Emits [] s'.builder
  same : SameButCode s s'
  does : ∀ {σ : Type} {m : Machine σ} {L : Set Word} {c : Config σ}, s'.builder.Completes m.func →
    m.At s.builder c →
    m.Does L s.builder c s'.builder fun c' => c'.memory = c.memory

theorem Straight.trans (h₁ : Straight s s') (h₂ : Straight s' s'') : Straight s s'' where
  emits := h₁.emits.trans h₂.emits
  same := h₁.same.trans h₂.same
  does hm hc := (h₁.does (h₂.emits.toExtends.completes hm) hc).bind h₁.emits.toExtends
    h₂.emits.toGrows
    fun _ hc' _ hmem => (h₂.does hm hc').mono fun _ _ _ hmem' => hmem'.trans hmem

/-- A quiet step whose code is executed as a whole. -/
class Smooth (x : Lower α) : Prop extends Obeys quiet x where
  straight : ∀ env s a s', s.builder.WellFormed → x env s = .ok (a, s') → Straight s s'

instance (priority := low) (x : Lower α) [hx : Smooth x] : Tidy x where
  obeys env s a s' h hw := (hx.straight env s a s' hw h).emits

/-- A step that changes neither the code nor what the lowering knows is smooth. -/
theorem smooth_of_same {x : Lower α}
    (h : ∀ env s a s', x env s = .ok (a, s') → s'.builder = s.builder ∧ SameButCode s s') :
    Smooth x where
  obeys env s a s' hx := (h env s a s' hx).2
  straight env s a s' hw hx := by
    obtain ⟨hb, hsame⟩ := h env s a s' hx
    refine ⟨by rw [hb]; exact .refl hw, hsame, fun _ hc => ?_⟩
    rw [hb]
    exact .refl hc rfl

instance (a : α) : Smooth (pure a : Lower α) :=
  smooth_of_same fun _ _ _ _ h => by cases h; exact ⟨rfl, .refl _⟩

instance (x : Lower α) (f : α → Lower β) [hx : Smooth x] [hf : ∀ a, Smooth (f a)] :
    Smooth (x >>= f) where
  toObeys := inferInstance
  straight env s c s' hw h := by
    obtain ⟨a, s₁, h₁, h₂⟩ := bind_ok h
    have e₁ := hx.straight env s a s₁ hw h₁
    exact e₁.trans ((hf a).straight env s₁ c s' e₁.emits.after h₂)

theorem Smooth.bind {x : Lower α} {f : α → Lower β} (hx : Smooth x) (hf : ∀ a, Smooth (f a)) :
    Smooth (x >>= f) :=
  inferInstance

instance (x : Except Fault α) : Smooth (liftM x : Lower α) := smooth_of_same fun _ _ _ _ h => by
  obtain ⟨-, rfl⟩ := check_ok h
  exact ⟨rfl, .refl _⟩

instance (x : Except Fault α) : Smooth (check x : Lower α) := inferInstanceAs (Smooth (liftM x))

instance : Smooth (read : Lower Env) :=
  smooth_of_same fun _ _ _ _ h => by cases h; exact ⟨rfl, .refl _⟩

instance : Smooth (get : Lower State) :=
  smooth_of_same fun _ _ _ _ h => by cases h; exact ⟨rfl, .refl _⟩

instance (cause : CrashCause) : Smooth (crash cause : Lower α) :=
  smooth_of_same fun _ _ _ _ h => by cases h

theorem smooth_modify {f : State → State} (h : ∀ s, (f s).builder = s.builder ∧ SameButCode s (f s))
    :
    Smooth (modify f : Lower Unit) := smooth_of_same fun _ s _ _ hx => by cases hx; exact h s

instance (id : NodeId) : Smooth (getNode id) := by unfold getNode; infer_instance

instance (id : NodeId) (form : Form) : Smooth (held? id form) := by
  refine .bind inferInstance fun s => ?_
  split <;> infer_instance

/-- A constant is one instruction. -/
instance (n : Int) : Smooth (liftM (Emit.int32 n) : Lower Reg) where
  toObeys := inferInstance
  straight env s a s' hw h := by
    have e : s.builder.Emits [] s'.builder := Tidy.after h (.refl hw)
    obtain ⟨b', hb, rfl⟩ := emit_ok h
    refine ⟨e, ⟨rfl, rfl, rfl, rfl, rfl, rfl, rfl, rfl⟩, fun hm hc => ?_⟩
    exact (Emit.int32_yieldsIn n (.refl _ _) hc hb hm).mono fun _ _ _ h => h.1

/-! ## Exits -/

/-- A step of building an exit that is smooth. -/
class SmoothCapture (y : Capturing α) : Prop where
  run : ∀ c, Smooth (y c)

instance (a : α) : SmoothCapture (pure a : Capturing α) :=
  ⟨fun c => inferInstanceAs (Smooth (pure (a, c)))⟩

instance (y : Capturing α) (f : α → Capturing β) [hy : SmoothCapture y]
    [hf : ∀ a, SmoothCapture (f a)] :
    SmoothCapture (y >>= f) :=
  ⟨fun c => .bind (hy.run c) fun p => (hf p.1).run p.2⟩

instance (x : Lower α) [hx : Smooth x] : SmoothCapture (liftM x : Capturing α) :=
  ⟨fun c => inferInstanceAs (Smooth (x >>= fun a => pure (a, c)))⟩

instance (c : Prop) [Decidable c] (x y : Capturing α) [hx : SmoothCapture x] [hy : SmoothCapture y]
    :
    SmoothCapture (if c then x else y) := by
  split
  · exact hx
  · exact hy

instance : SmoothCapture (read : Capturing Env) :=
  ⟨fun c => inferInstanceAs (Smooth ((read : Lower Env) >>= fun a => pure (a, c)))⟩

instance : SmoothCapture (get : Capturing Capture) := ⟨fun _ => inferInstanceAs (Smooth (pure _))⟩

instance (f : Capture → Capture) : SmoothCapture (modify f : Capturing Unit) :=
  ⟨fun _ => inferInstanceAs (Smooth (pure _))⟩

instance : SmoothCapture (getThe State : Capturing State) :=
  ⟨fun c => inferInstanceAs (Smooth ((get : Lower State) >>= fun a => pure (a, c)))⟩

theorem smoothCapture_modifyState {f : State → State}
    (h : ∀ s, (f s).builder = s.builder ∧ SameButCode s (f s)) :
    SmoothCapture (modifyThe State f : Capturing Unit) := by
  have := smooth_modify h
  exact ⟨fun c => inferInstanceAs (Smooth ((modify f : Lower Unit) >>= fun a => pure (a, c)))⟩

instance (f : α → Capturing β) (l : List α) [hf : ∀ a, SmoothCapture (f a)] :
    SmoothCapture (l.mapM f) := by
  induction l with
  | nil => exact inferInstanceAs (SmoothCapture (pure _))
  | cons a l ih => rw [List.mapM_cons]; infer_instance

theorem SmoothCapture.bind {y : Capturing α} {f : α → Capturing β} (hy : SmoothCapture y)
    (hf : ∀ a, SmoothCapture (f a)) : SmoothCapture (y >>= f) := inferInstance

instance (c : Capture) : SmoothCapture (set c : Capturing Unit) :=
  ⟨fun _ => inferInstanceAs (Smooth (pure _))⟩

instance (r : Reg) : SmoothCapture (capture r) := by
  refine .bind inferInstance fun c => ?_
  split <;> infer_instance

instance firstHeld_smooth (id : NodeId) : ∀ forms, Smooth (firstHeld? id forms)
  | [] => inferInstanceAs (Smooth (pure _))
  | (form, format) :: rest => by
    have ih := firstHeld_smooth id rest
    refine .bind inferInstance fun r => ?_
    split <;> infer_instance

instance (e : Edge) : Smooth (int32ForExit? e) := by
  refine .bind inferInstance fun r => ?_
  split
  · infer_instance
  · refine .bind inferInstance fun node => ?_
    split <;> infer_instance

instance (id : NodeId) (node : Node) : SmoothCapture (recoveryOf id node) := by
  refine .bind inferInstance fun env => ?_
  split
  · infer_instance
  · refine .bind inferInstance fun e₁ => .bind inferInstance fun left => .bind inferInstance
      fun e₂ =>
      .bind inferInstance fun right => ?_
    split <;> infer_instance

instance (id : NodeId) (node : Node) : SmoothCapture (capturedValue id node) := by
  unfold capturedValue
  split
  · infer_instance
  · refine .bind inferInstance fun held => ?_
    split <;> infer_instance

instance (id : NodeId) (kind : PhantomKind) (origin : CodeOrigin) :
    SmoothCapture (announce id kind origin) :=
  .bind inferInstance fun _ =>
    .bind (smoothCapture_modifyState fun _ => ⟨rfl, rfl, rfl, rfl, rfl, rfl, rfl, rfl, rfl⟩)
      fun _ => inferInstance

instance (m : MaterializationId) (properties : List (PromotedLocation × ExitValue)) :
    SmoothCapture (describe m properties) :=
  smoothCapture_modifyState fun _ => ⟨rfl, rfl, rfl, rfl, rfl, rfl, rfl, rfl, rfl⟩

instance exitValue_smooth : ∀ depth a, SmoothCapture (exitValue depth a)
  | 0, _ => inferInstanceAs (SmoothCapture (pure _))
  | depth + 1, a => by
    have ih := exitValue_smooth depth
    unfold exitValue
    split
    · infer_instance
    · split
      · infer_instance
      · refine .bind inferInstance fun node => ?_
        split
        · refine .bind inferInstance fun c => ?_
          split <;> infer_instance
        · infer_instance

instance (v : Operand) (a : Availability) : SmoothCapture (exitVariable v a) := by
  unfold exitVariable
  infer_instance

instance (kind : ExitKind) (profile : Option Reg) : Smooth (buildExit kind profile) := by
  refine .bind inferInstance fun s => .bind ?_ fun p => ?_
  · dsimp only [StateT.run]
    refine (?_ : SmoothCapture _).run {}
    have (v : Operand × Availability) : SmoothCapture (do return (v.1, ← exitVariable v.1 v.2)) :=
      inferInstance
    split <;> infer_instance
  · refine .bind inferInstance fun env => .bind inferInstance fun s' => ?_
    exact .bind (smooth_modify fun _ => ⟨rfl, rfl, rfl, rfl, rfl, rfl, rfl, rfl, rfl⟩)
      fun _ => inferInstance

instance : quiet.Rebuilds where
  rebuilding := inferInstance
  captures _ _ := inferInstance

end SpecJit.Lowering
