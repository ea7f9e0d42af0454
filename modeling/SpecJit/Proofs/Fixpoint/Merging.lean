import Mathlib.Data.List.Perm.Basic
import SpecJit.Proofs.ExactFacts
import SpecJit.Proofs.Fixpoint.Order

/-!
# The order in which facts are merged

A union of two facts is above both (`AbstractValue.Below`), and it tells exactly if it is not the
first one (`merge_snd`). What is given up on the way, a set of structures that is too large or a
constant that is not common to all, would be given up in every other order too: the facts of several
paths have one union (`merges_agree`).

Sets of structures are lists, and two lists of the same ids are one set only if both ascend
(`StructureFact.Sorted`). Unions keep this, whatever is added.
-/

namespace SpecJit

/-- Steps of a fold may be taken in any order if two of them may be exchanged wherever the fold can
come to. -/
theorem foldl_perm {α β : Type} {P : β → Prop} {Q : α → Prop} {f : β → α → β}
    (hstep : ∀ b a, P b → Q a → P (f b a))
    (hcomm : ∀ b a a', P b → Q a → Q a' → f (f b a) a' = f (f b a') a) {l l' : List α}
    (hperm : l.Perm l') (hl : ∀ a ∈ l, Q a) {b : β} (hb : P b) : l.foldl f b = l'.foldl f b := by
  induction hperm generalizing b with
  | nil => rfl
  | cons a _ ih => exact ih (fun a' ha' => hl a' (.tail _ ha')) (hstep b a hb (hl a (.head _)))
  | swap a a' l =>
    simp only [List.foldl_cons]
    rw [hcomm b a' a hb (hl a' (.head _)) (hl a (.tail _ (.head _)))]
  | trans h₁ _ ih₁ ih₂ => rw [ih₁ hl hb, ih₂ (fun a ha => hl a (h₁.mem_iff.2 ha)) hb]

namespace SpecType

theorem or_comm (a b : SpecType) : a ||| b = b ||| a := congrArg mk (UInt64.or_comm _ _)

theorem or_right_comm (a b c : SpecType) : a ||| b ||| c = a ||| c ||| b := congrArg mk (by
  change a.bits ||| b.bits ||| c.bits = a.bits ||| c.bits ||| b.bits
  rw [UInt64.or_assoc, UInt64.or_comm b.bits, ← UInt64.or_assoc])

end SpecType

/-! ## Structures -/

namespace StructureFact

variable {f f' f'' : StructureFact} {limit : Nat}

/-- The ids of the set ascend. -/
def Sorted : StructureFact → Prop
  | .top => True
  | .known s => s.Ascending

instance : (f : StructureFact) → Decidable f.Sorted
  | .top => .isTrue trivial
  | .known s => inferInstanceAs (Decidable s.Ascending)

/-- The set is given up if it is too large. -/
def widen (limit : Nat) (s : StructureSet) : StructureFact :=
  if limit < s.size then .top else .known s

theorem merge_known (limit : Nat) (s t : StructureSet) :
    ((known s).merge limit (.known t)).1 = widen limit (s.merge t).1 := by
  simp only [merge, widen]
  split <;> rfl

theorem merge_top (limit : Nat) (f : StructureFact) : (f.merge limit .top).1 = .top := by
  cases f <;> rfl

/-- What a set was given up for stays given up. -/
theorem widen_merge (limit : Nat) (s : StructureSet) (t : StructureSet) :
    ((widen limit s).merge limit (.known t)).1 = widen limit (s.merge t).1 := by
  unfold widen
  split
  · have hsize := StructureSet.size_le_merge s t
    rw [if_pos (by omega)]
    rfl
  · exact merge_known limit s t

theorem Sorted.merge (h : f.Sorted) (f' : StructureFact) : (f.merge limit f').1.Sorted := by
  cases f with
  | top => trivial
  | known s =>
    cases f' with
    | top => trivial
    | known t =>
      rw [merge_known, widen]
      split
      · trivial
      · exact StructureSet.Ascending.merge h t

theorem Sorted.merge_comm (h : f.Sorted) (h' : f'.Sorted) :
    (f.merge limit f').1 = (f'.merge limit f).1 := by
  cases f with
  | top => exact (merge_top limit f').symm
  | known s =>
    cases f' with
    | top => rfl
    | known t => rw [merge_known, merge_known, StructureSet.Ascending.merge_comm h h']

theorem Sorted.merge_right_comm (h : f.Sorted) (f' f'' : StructureFact) :
    ((f.merge limit f').1.merge limit f'').1 = ((f.merge limit f'').1.merge limit f').1 := by
  cases f with
  | top => rfl
  | known s =>
    cases f' with
    | top => exact (merge_top limit _).symm
    | known t =>
      cases f'' with
      | top => exact merge_top limit _
      | known u =>
        rw [merge_known, merge_known, widen_merge, widen_merge,
          StructureSet.Ascending.merge_right_comm h]

end StructureFact

/-! ## Values -/

namespace AbstractValue

variable {v v' v'' : AbstractValue} {limit : Nat}

/-- The structures are listed in the order of their ids. -/
def Sorted (v : AbstractValue) : Prop := v.structures.Sorted

instance (v : AbstractValue) : Decidable v.Sorted := inferInstanceAs (Decidable v.structures.Sorted)

/-- The second fact allows all that the first one does. A fact without kinds allows nothing,
whatever else stands in it. -/
def Below (v v' : AbstractValue) : Prop := v.isBottom = false → v'.Covers v

theorem Below.refl (v : AbstractValue) : v.Below v := fun _ => .refl v

theorem below_of_isBottom (h : v.isBottom = true) (v' : AbstractValue) : v.Below v' := fun hv => by
  rw [h] at hv
  cases hv

theorem merge_of_other_bottom (h : v'.isBottom = true) : v.merge limit v' = (v, false) := by
  simp [merge, h]

theorem merge_of_bottom (h : v.isBottom = true) (h' : v'.isBottom = false) :
    v.merge limit v' = (v', true) := by
  simp [merge, h, h']

theorem below_merge (limit : Nat) (v v' : AbstractValue) :
    v.Below (v.merge limit v').1 ∧ v'.Below (v.merge limit v').1 := by
  cases h' : v'.isBottom with
  | true =>
    rw [merge_of_other_bottom h']
    exact ⟨.refl v, below_of_isBottom h' v⟩
  | false =>
    cases h : v.isBottom with
    | true =>
      rw [merge_of_bottom h h']
      exact ⟨below_of_isBottom h v', .refl v'⟩
    | false => exact ⟨fun _ => (merge_covers limit h h').1, fun _ => (merge_covers limit h h').2⟩

/-- The union tells that it has changed the first fact, and only then. -/
theorem merge_snd : (v.merge limit v').2 = true ↔ (v.merge limit v').1 ≠ v := by
  cases h : v.isBottom with
  | false =>
    rcases merge_room limit h v' with hsame | ⟨hchanged, hroom⟩
    · simp [hsame]
    · exact iff_of_true hchanged fun heq => Nat.lt_irrefl _ (heq ▸ hroom)
  | true =>
    cases h' : v'.isBottom with
    | true => simp [merge_of_other_bottom h']
    | false =>
      rw [merge_of_bottom h h']
      refine iff_of_true rfl fun heq => ?_
      have hv : v' = v := heq
      rw [hv, h] at h'
      cases h'

/-- Both facts name the constant. -/
def common (c c' : Option FrozenValue) : Option FrozenValue := if c = c' then c else none

theorem common_comm (c c' : Option FrozenValue) : common c c' = common c' c := by
  unfold common
  split
  · rename_i h
    rw [if_pos h.symm, h]
  · rename_i h
    rw [if_neg (Ne.symm h)]

theorem common_common (c c' c'' : Option FrozenValue) :
    common (common c c') c'' = if c = c' ∧ c = c'' then c else none := by
  unfold common
  by_cases h : c = c'
  · simp [h]
  · simp [h]

theorem common_right_comm (c c' c'' : Option FrozenValue) :
    common (common c c') c'' = common (common c c'') c' := by
  simp only [common_common, and_comm]

theorem merge_eq_common (h : v.isBottom = false) (h' : v'.isBottom = false) : (v.merge limit v').1 =
    { ty := v.ty ||| v'.ty, structures := (v.structures.merge limit v'.structures).1,
      value := common v.value v'.value } := by
  rw [merge_of_not_bottom h h']
  unfold common
  cases hvalue : v.value with
  | none => simp
  | some c => by_cases hc : some c = v'.value <;> simp [hc]

theorem Sorted.merge (h : v.Sorted) (h' : v'.Sorted) : (v.merge limit v').1.Sorted := by
  cases hb' : v'.isBottom with
  | true => rwa [merge_of_other_bottom hb']
  | false =>
    cases hb : v.isBottom with
    | true => rwa [merge_of_bottom hb hb']
    | false =>
      rw [merge_eq_common hb hb']
      exact StructureFact.Sorted.merge h _

theorem isBottom_merge (h : v.isBottom = false) (v' : AbstractValue) :
    (v.merge limit v').1.isBottom = false :=
  ((below_merge limit v v').1 h).not_bottom h

theorem Sorted.merge_comm (h : v.Sorted) (h' : v'.Sorted) (hb : v.isBottom = false)
    (hb' : v'.isBottom = false) :
    (v.merge limit v').1 = (v'.merge limit v).1 := by
  rw [merge_eq_common hb hb', merge_eq_common hb' hb, StructureFact.Sorted.merge_comm h h',
    common_comm, SpecType.or_comm]

/-- Two facts may be added to a third one in either order. -/
theorem Sorted.merge_right_comm (h : v.Sorted) (h' : v'.Sorted) (h'' : v''.Sorted) :
    ((v.merge limit v').1.merge limit v'').1 = ((v.merge limit v'').1.merge limit v').1 := by
  cases hb' : v'.isBottom with
  | true => rw [merge_of_other_bottom hb', merge_of_other_bottom hb']
  | false =>
    cases hb'' : v''.isBottom with
    | true => rw [merge_of_other_bottom hb'', merge_of_other_bottom hb'']
    | false =>
      cases hb : v.isBottom with
      | true =>
        -- the one that comes first is copied
        rw [merge_of_bottom hb hb', merge_of_bottom hb hb'', h'.merge_comm h'' hb' hb'']
      | false =>
        rw [merge_eq_common (isBottom_merge hb v') hb'',
          merge_eq_common (isBottom_merge hb v'') hb', merge_eq_common hb hb',
          merge_eq_common hb hb'', StructureFact.Sorted.merge_right_comm h, common_right_comm,
          SpecType.or_right_comm]

/-- What several facts allow between them. -/
def mergeAll (limit : Nat) (facts : List AbstractValue) : AbstractValue :=
  facts.foldl (fun v v' => (v.merge limit v').1) bottom

theorem mergeAll_perm (limit : Nat) {l l' : List AbstractValue} (hl : ∀ v ∈ l, v.Sorted)
    (hperm : l.Perm l') :
    mergeAll limit l = mergeAll limit l' :=
  foldl_perm (P := Sorted) (Q := Sorted) (fun _ _ => Sorted.merge)
    (fun _ _ _ => Sorted.merge_right_comm) hperm hl (by decide)

end AbstractValue

/-! ## Facts about all nodes -/

namespace Facts

variable {g : Graph} {f f' f'' : Facts} {limit : Nat} {o o' o'' : Option AbstractValue}

/-- Merging facts about one node is merging values, where no fact counts as none that a value can
have. -/
theorem mergeSlot_getD (limit : Nat) (o o' : Option AbstractValue) :
    (mergeSlot limit o o').1.getD .bottom = ((o.getD .bottom).merge limit (o'.getD .bottom)).1 := by
  cases o' with
  | none =>
    rw [AbstractValue.merge_of_other_bottom
      (by decide : ((none : Option AbstractValue).getD .bottom).isBottom = true)]
    cases o <;> rfl
  | some v' =>
    cases o with
    | some v => rfl
    | none =>
      cases h' : v'.isBottom with
      | true => simp [mergeSlot, AbstractValue.merge, h']
      | false =>
        simp [mergeSlot,
          AbstractValue.merge_of_bottom (by decide : AbstractValue.bottom.isBottom = true), h']

theorem mergeSlot_isSome (limit : Nat) (o o' : Option AbstractValue) :
    (mergeSlot limit o o').1.isSome = (o.isSome || o'.any fun v' => !v'.isBottom) := by
  cases o' with
  | none => cases o <;> rfl
  | some v' =>
    cases o with
    | some v => rfl
    | none => cases h' : v'.isBottom <;> simp [mergeSlot, h']

theorem eq_of_getD (hsome : o.isSome = o'.isSome) (hvalue : o.getD .bottom = o'.getD .bottom) :
    o = o' := by
  cases o <;> cases o' <;> simp_all

/-- The structures of every fact are listed in the order of their ids. -/
def Sorted (f : Facts) : Prop := ∀ id, ((f.get? id).getD .bottom).Sorted

theorem sorted_empty (g : Graph) : (empty g).Sorted := by
  intro id
  have hnone : (empty g).get? id = none := by
    simp only [get?, empty, Array.getElem?_replicate, Array.size_replicate]
    split <;> rfl
  rw [hnone]
  decide

theorem Sorted.merge (h : f.Sorted) (h' : f'.Sorted) (hf : f.About g) (hf' : f'.About g) :
    (f.merge limit f').1.Sorted := by
  intro id
  rw [get?_merge hf hf', mergeSlot_getD]
  exact (h id).merge (h' id)

/-- Facts about the nodes of a graph are determined by what is known of each node. -/
theorem About.eq_of_get? (hf : f.About g) (hf' : f'.About g) (h : ∀ id, f.get? id = f'.get? id) :
    f = f' := by
  have hslots : f.slots = f'.slots := by
    refine Array.ext (hf.size.trans hf'.size.symm) fun i hi hi' => ?_
    simpa [get?, hi, hi'] using h ⟨i⟩
  cases f
  cases f'
  rw [Facts.mk.injEq]
  exact ⟨hslots, hf.strays.trans hf'.strays.symm⟩

theorem merge_right_comm (h : f.About g ∧ f.Sorted) (h' : f'.About g ∧ f'.Sorted)
    (h'' : f''.About g ∧ f''.Sorted) :
    ((f.merge limit f').1.merge limit f'').1 = ((f.merge limit f'').1.merge limit f').1 := by
  have hleft : (f.merge limit f').1.About g := h.1.merge h'.1
  have hright : (f.merge limit f'').1.About g := h.1.merge h''.1
  refine (hleft.merge h''.1).eq_of_get? (hright.merge h'.1) fun id => ?_
  rw [get?_merge hleft h''.1, get?_merge hright h'.1, get?_merge h.1 h'.1, get?_merge h.1 h''.1]
  refine eq_of_getD ?_ ?_
  · simp only [mergeSlot_isSome, Bool.or_right_comm]
  · simp only [mergeSlot_getD]
    exact (h.2 id).merge_right_comm (h'.2 id) (h''.2 id)

/-- What is known at the head of a block that several blocks hand their facts to. -/
def mergeAll (limit : Nat) (g : Graph) (facts : List Facts) : Facts :=
  facts.foldl (fun f f' => (f.merge limit f').1) (empty g)

theorem mergeAll_perm (limit : Nat) {l l' : List Facts} (hl : ∀ f ∈ l, f.About g ∧ f.Sorted)
    (hperm : l.Perm l') :
    mergeAll limit g l = mergeAll limit g l' :=
  foldl_perm (P := fun f => f.About g ∧ f.Sorted) (Q := fun f => f.About g ∧ f.Sorted)
    (fun _ _ h h' => ⟨h.1.merge h'.1, h.2.merge h'.2 h.1 h'.1⟩) (fun _ _ _ => merge_right_comm)
      hperm hl
    ⟨about_empty g, sorted_empty g⟩

end Facts

/-! ## Merging -/

/-- A union tells that the first fact has changed exactly if it has, and both facts are below it.
Facts whose structures are listed in the order of their ids have one union, in whatever order they
are merged, and so do the facts that several blocks hand to another one. That order (`Sorted`) is
the invariant of `StructureSet`: all that build a set keep it (`StructureSet.Ascending`), and only
sets that are decoded as they stand can break it. -/
theorem merges_agree (limit : Nat) :
    (∀ v v' : AbstractValue, ((v.merge limit v').2 = true ↔ (v.merge limit v').1 ≠ v) ∧
      v.Below (v.merge limit v').1 ∧ v'.Below (v.merge limit v').1) ∧
    (∀ l l' : List AbstractValue, (∀ v ∈ l, v.Sorted) → l.Perm l' →
      AbstractValue.mergeAll limit l = AbstractValue.mergeAll limit l') ∧
    ∀ (g : Graph) (l l' : List Facts), (∀ f ∈ l, f.About g ∧ f.Sorted) → l.Perm l' →
      Facts.mergeAll limit g l = Facts.mergeAll limit g l' :=
  ⟨fun v v' => ⟨AbstractValue.merge_snd, AbstractValue.below_merge limit v v'⟩,
    fun _ _ hl hperm => AbstractValue.mergeAll_perm limit hl hperm,
    fun _ _ _ hl hperm => Facts.mergeAll_perm limit hl hperm⟩

/-- A cell with structure 2, and one with structure 1 or 3. -/
def twoFacts : List AbstractValue :=
  [.withStructure .finalObject ⟨2⟩, { ty := .finalObject, structures := .known ⟨[⟨1⟩, ⟨3⟩]⟩ }]

/-- The structures of both are more than two. -/
theorem merges_agree_twoFacts : (∀ v ∈ twoFacts, v.Sorted) ∧
    AbstractValue.mergeAll 2 twoFacts = AbstractValue.mergeAll 2 twoFacts.reverse ∧
    AbstractValue.mergeAll 2 twoFacts = .ofType .finalObject :=
  ⟨by
    decide, (merges_agree 2).2.1 twoFacts twoFacts.reverse (by decide)
      (List.reverse_perm twoFacts).symm, by decide +kernel⟩

end SpecJit
