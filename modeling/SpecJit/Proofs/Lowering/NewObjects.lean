import SpecJit.Proofs.Lowering.FreshMemory
import SpecJit.Proofs.Lowering.SpreadArguments

/-!
# New objects

What the code of a new object, a new activation or a new array asks for, and what it stores: nothing
outside of what it asked for, and every slot, every length and every field that it was given. The
offsets of the properties fit the size of the cell if no slot of it has the number of a property out
of line (`Structure.Orderly`).
-/

namespace SpecJit

open Lir

/-! ## Places of properties -/

/-- How far a property is behind the cell, or behind the butterfly. -/
def PropertyOffset.distance (layout : ObjectLayout) (o : PropertyOffset) : Int :=
  if o.isInline then layout.fieldOffset .inlineStorage + 8 * o.index else -16 - 8 * o.outOfLineIndex

/-- The slots of the cell have numbers of inline properties, and each property has a place: in a
slot of the cell, or among as many places out of line as there are such properties. -/
structure Structure.Orderly (t : Structure) : Prop where
  few : t.inlineCapacity ≤ PropertyOffset.firstOutOfLine
  inline : ∀ e ∈ t.properties, e.offset.isInline = true → e.offset.index < t.inlineCapacity
  outOfLine : ∀ e ∈ t.properties, e.offset.isInline = false →
    e.offset.outOfLineIndex < t.outOfLineSize

theorem le_leastPowerOfTwo (n : Nat) : n ≤ leastPowerOfTwo n := by
  unfold leastPowerOfTwo
  split
  · assumption
  · have := Nat.lt_log2_self (n := n - 1)
    rw [Nat.pow_eq]
    omega

theorem Structure.outOfLineSize_le (t : Structure) : t.outOfLineSize ≤ t.outOfLineCapacity := by
  unfold outOfLineCapacity SpecJit.outOfLineCapacity
  split
  · omega
  · exact Nat.le_trans (le_leastPowerOfTwo _) (Nat.le_max_left _ _)

theorem Structure.mem_of_offsetOf? {t : Structure} {identifier : IdentifierIndex}
    {o : PropertyOffset} (h : t.offsetOf? identifier = some o) :
    ∃ e ∈ t.properties, e.offset = o := by
  obtain ⟨e, he, rfl⟩ := Option.map_eq_some_iff.1 h
  exact ⟨e, List.mem_of_find?_eq_some he, rfl⟩

/-- A slot whose number is small. -/
theorem Offset.slot_ok {base k : Int} {i : Nat} (hi : i < 2 ^ 31) (h : Offset.slot base i = .ok k) :
    k = base + 8 * i ∧ i < 2 ^ 28 ∧ k < 0x80000000 := by
  obtain ⟨bytes, hbytes, h⟩ := bind_eq_ok_iff.1 h
  rw [Frame.ofIndex_of_lt hi] at hbytes
  obtain ⟨hrange, rfl⟩ := Lowering.checkI32_ok hbytes
  obtain ⟨hrange', rfl⟩ := Lowering.checkI32_ok h
  exact ⟨rfl, by omega, hrange'.2⟩

theorem ObjectLayout.propertyOffset_ok {layout : ObjectLayout} {o : PropertyOffset} {k : Int}
    (ho : o.index < 2 ^ 31) (h : layout.propertyOffset o = .ok k) :
    k = o.distance layout ∧ -0x80000000 ≤ k ∧ k < 0x80000000 := by
  unfold propertyOffset at h
  unfold PropertyOffset.distance
  split at h
  · rename_i hinline
    rw [if_pos hinline]
    obtain ⟨bytes, -, hslot⟩ := bind_eq_ok_iff.1 h
    obtain ⟨hrange, rfl⟩ := Lowering.checkI32_ok hslot
    exact ⟨(Offset.slot_ok ho h).1, hrange⟩
  · rename_i hinline
    rw [if_neg hinline]
    have hindex : o.outOfLineIndex < 2 ^ 31 := by
      unfold PropertyOffset.outOfLineIndex
      omega
    obtain ⟨bytes, hbytes, h⟩ := bind_eq_ok_iff.1 h
    rw [Frame.ofIndex_of_lt hindex] at hbytes
    obtain ⟨-, rfl⟩ := Lowering.checkI32_ok hbytes
    obtain ⟨hrange, rfl⟩ := Lowering.checkI32_ok h
    exact ⟨rfl, hrange⟩

/-- The bytes of an object. -/
def ObjectLayout.objectBytes (layout : ObjectLayout) (t : Structure) : Nat :=
  (layout.fieldOffset .inlineStorage).toNat + 8 * t.inlineCapacity

theorem ObjectLayout.objectSize_ok {layout : ObjectLayout} {t : Structure} {n : Nat}
    (hlayout : layout.KeepsFields) (h : layout.objectSize t.inlineCapacity = .ok n) :
    n = layout.objectBytes t := by
  obtain ⟨bytes, hbytes, h⟩ := bind_eq_ok_iff.1 h
  have hbytes := (Lowering.checkU32_ok hbytes).1
  have hn := (Lowering.checkU32_ok h).1
  have := hlayout.behind
  have := hlayout.small
  unfold objectBytes
  omega

namespace Lowering

/-! ## Lists of stores -/

section

variable {σ : Type} {m : Machine σ} {env : Env} {x : Word} {b b' : Builder} {c c' : Config σ}
  {ok : Stored → Prop}

theorem HoldAll.retain {rs : List Reg} {ws : List Word} (h : HoldAll b c rs ws) (e : b.Extends b')
    (hregs : c.Retains b c') :
    HoldAll b' c' rs ws := h.imp fun _ _ ⟨ty, hr⟩ => ⟨ty, hr.retain e hregs⟩

theorem HoldAll.zip {κ : Type} {rs : List Reg} {ws : List Word} (h : HoldAll b c rs ws)
    (keys : List κ) :
    List.Forall₂ (fun p q => p.1 = q.1 ∧ ∃ ty, c.Has b p.2 ty q.2) (keys.zip rs) (keys.zip ws) := by
  induction h generalizing keys with
  | nil => simp
  | cons hr _ ih =>
    cases keys with
    | nil => exact .nil
    | cons k keys => exact .cons ⟨rfl, hr⟩ (ih keys)

theorem HoldAll.zipIdx {rs : List Reg} {ws : List Word} (h : HoldAll b c rs ws) (k : Nat) :
    List.Forall₂ (fun p q => p.2 = q.2 ∧ ∃ ty, c.Has b p.1 ty q.1) (rs.zipIdx k) (ws.zipIdx k) := by
  induction h generalizing k with
  | nil => exact .nil
  | cons hr _ ih => exact .cons ⟨rfl, hr⟩ (ih (k + 1))

theorem HoldAll.replicate {r : Reg} {ty : Ty} {w : Word} (h : c.Has b r ty w) (n : Nat) :
    HoldAll b c (List.replicate n r) (List.replicate n w) := by
  induction n with
  | zero => exact .nil
  | succ n ih => exact .cons ⟨ty, h⟩ ih

/-- A loop that comes to its end has made each of its turns. -/
theorem ran_of_forM {α : Type} {f : α → Lower Unit} {l : List α} {s s' : State} {u : Unit}
    (h : l.forM f env s = .ok (u, s')) :
    ∀ a ∈ l, ∃ s₁ s₂, f a env s₁ = .ok ((), s₂) := by
  induction l generalizing s with
  | nil => exact nofun
  | cons a l ih =>
    rw [forM_cons] at h
    obtain ⟨_, s₁, h₁, h⟩ := bind_ok h
    exact List.forall_mem_cons.2 ⟨⟨s, s₁, h₁⟩, ih h⟩

/-- What a run of the lowering shows may be used for its code. -/
theorem Acts.ofRun {α : Type} {f : Lower α} {Q : α → Builder → Config σ → Prop}
    (h : ∀ {s r s'}, f env s = .ok (r, s') → Acts m .univ env b c f Q) : Acts m .univ env b c f Q :=
  fun _ _ _ _ hf hc hrun hm => h hrun hf hc hrun hm

end

/-! ## Cells -/

section

variable {σ : Type} {m : Machine σ} {env : Env} {x a v : Word} {b : Builder} {c : Config σ}
  {cell value scope : Reg} {t : Structure}

/-- The stores of `undefined` into the slots of a cell. -/
def inlineSlots (layout : ObjectLayout) (t : Structure) (a : Word) : List Stored :=
  (List.range t.inlineCapacity).flatMap fun (i : Nat) =>
    [⟨displace a (layout.fieldOffset .inlineStorage + 8 * i), 8, Value.undefined⟩]

theorem fillInlineSlots_fills (hfew : t.inlineCapacity ≤ PropertyOffset.firstOutOfLine)
    (hlayout : env.layout.KeepsFields) (ha : c.Has b cell .i64 a)
    (hv : c.Has b value .i64 Value.undefined) :
    Fills m x env b c (fillInlineSlots cell value t.inlineCapacity)
      (·.In a 0 (env.layout.objectBytes t)) (inlineSlots env.layout t a) := by
  have hbehind := hlayout.behind
  unfold fillInlineSlots
  refine .ofRead ?_
  dsimp only
  refine .forM ?_
  intro i hi b' c' e hregs
  refine .ofCheck fun {k} hk => ?_
  have hi := List.mem_range.1 hi
  have hinline : PropertyOffset.isInline ⟨i⟩ = true := by
    simp only [PropertyOffset.isInline, decide_eq_true_eq]
    omega
  have hfirst : PropertyOffset.firstOutOfLine = 100 := rfl
  obtain ⟨hk, hlo, hhi⟩ := ObjectLayout.propertyOffset_ok (by simp only []; omega) hk
  rw [PropertyOffset.distance, if_pos hinline] at hk
  rw [← hk]
  refine store_fills (hv.retain e hregs) (ha.retain e hregs) hlo hhi ⟨k, rfl, by omega, ?_⟩
  simp only [hk, ObjectLayout.objectBytes, MemWidth.bytes]
  omega

/-- What is stored into the cell of a new object. -/
def initializeObject (cell : Reg) (t : Structure) : Lower Unit := do
  initializeHeader cell t
  storeField .w64 (← Emit.int64 0) cell .butterfly
  fillInlineSlots cell (← Emit.word Value.undefined) t.inlineCapacity

instance {R : Law} [R.Codes] (cell : Reg) (t : Structure) : Obeys R (initializeObject cell t) := by
  unfold initializeObject
  infer_instance

theorem allocateObject_eq : allocateObject t = (do
    let object ← allocateCell (← (← read).layout.objectSize t.inlineCapacity)
    initializeObject object t
    return object) := by
  simp only [allocateObject, initializeObject, bind_assoc]

theorem initializeObject_fills (hlayout : env.layout.KeepsFields)
    (hfew : t.inlineCapacity ≤ PropertyOffset.firstOutOfLine) (ha : c.Has b cell .i64 a) :
    Fills m x env b c (initializeObject cell t) (·.In a 0 (env.layout.objectBytes t))
      (inlineSlots env.layout t a) := by
  have hbehind := hlayout.behind
  have hroom : (16 : Int) ≤ env.layout.objectBytes t := by
    simp only [ObjectLayout.objectBytes]
    omega
  refine .andThen ((initializeHeader_fills hlayout ha).mono
    (fun _ h => h.mono (by omega) (by omega)) fun _ h => h) fun e₁ hregs₁ => ?_
  refine .value (.ofEmit (Emit.int64_yieldsIn 0)) fun {zero b₂ c₂} hf hzero => ?_
  replace ha := (ha.retain e₁ hregs₁).later hf
  refine .andThen (storeField_fills (k := 8) (hlayout.field _ (by decide)) hzero ha (by decide)
    (by decide)
    ⟨8, rfl, by decide, by simp only [MemWidth.bytes]; omega⟩) fun e₂ hregs₂ => ?_
  refine .value (.ofEmit (Emit.word_yieldsIn _)) fun {undefined b₃ c₃} hf' hundefined => ?_
  exact fillInlineSlots_fills hfew hlayout ((ha.retain e₂ hregs₂).later hf') hundefined

/-- A new object without fields: a cell with its header, no storage, and `undefined` in each slot.
-/
theorem allocateObject_builds (hlayout : env.layout.KeepsFields)
    (hfew : t.inlineCapacity ≤ PropertyOffset.firstOutOfLine) (hx : c.Has b env.context .i64 x) :
    Builds m x env b c (allocateObject t) fun r b' c' ps xs => ∃ a, c'.Has b' r .i64 a ∧
      ps = [⟨a, env.layout.objectBytes t⟩] ∧
      (∀ y ∈ xs, y.In a 0 (env.layout.objectBytes t)) ∧ inlineSlots env.layout t a ⊆ xs := by
  rw [allocateObject_eq]
  refine .ofRead (.ofCheck fun {n} hn => ?_)
  obtain rfl := ObjectLayout.objectSize_ok hlayout hn
  refine .bind (.ofFresh (allocateCell_acts hx)) fun {r b₁ c₁ ps xs} e hregs hfresh => ?_
  obtain ⟨a, ha, rfl, rfl⟩ := hfresh
  refine .bind (initializeObject_fills hlayout hfew ha) fun {_ b₂ c₂ ps xs} e₂ hregs₂ ⟨hps, hin,
    hmarks⟩ => .pure fun hf => ?_
  exact ⟨a, (ha.retain e₂ hregs₂).later hf,
    by simp [hps], by simpa using hin, by simpa using hmarks⟩

/-! ## Storage and fields -/

/-- Where the butterfly is whose storage starts at `base`. -/
def storageEnd (t : Structure) (base : Word) : Word := displace base (8 + 8 * t.outOfLineCapacity)

/-- The storage of an object, if it has properties out of line. -/
def storagePieces (t : Structure) (base : Word) : List Piece :=
  if t.outOfLineCapacity = 0 then [] else [⟨base, 8 + 8 * t.outOfLineCapacity⟩]

/-- The stores of the lengths of an object without elements, if it has storage. -/
def storageLengths (layout : ObjectLayout) (t : Structure) (base : Word) : List Stored :=
  if t.outOfLineCapacity = 0 then [] else lengths layout (storageEnd t base) 0

/-- The store of a field, if it is a named property. -/
def fieldStore (layout : ObjectLayout) (t : Structure) (a v : Word)
    (field : PromotedLocation × Word) : List Stored :=
  match field.1 with
  | .namedProperty identifier =>
    match t.offsetOf? identifier with
    | some o => [⟨displace (if o.isInline then a else v) (o.distance layout), 8, field.2⟩]
    | none => []
  | _ => []

/-- A store into the cell of an object, or into its storage. -/
def InObject (layout : ObjectLayout) (t : Structure) (a base : Word) (y : Stored) : Prop :=
  y.In a 0 (layout.objectBytes t) ∨ t.outOfLineCapacity ≠ 0 ∧
    y.In base 0 (8 + 8 * t.outOfLineCapacity)

theorem InObject.inside {layout : ObjectLayout} {base : Word} {y : Stored}
    (h : InObject layout t a base y) :
    ∃ p ∈ (⟨a, layout.objectBytes t⟩ :: storagePieces t base : List Piece), y.Inside p := by
  rcases h with h | ⟨hcap, h⟩
  · exact ⟨_, List.mem_cons_self, h⟩
  · refine ⟨⟨base, 8 + 8 * t.outOfLineCapacity⟩, List.mem_cons_of_mem _ ?_,
      h.mono (Int.le_refl _) (by simp only []; omega)⟩
    rw [storagePieces, if_neg hcap]
    exact List.mem_singleton_self _

/-- The storage of a new object, or the object itself if it needs none. -/
def newStorage (object : Reg) (t : Structure) : Lower Reg :=
  if 0 < t.outOfLineCapacity then attachButterfly object t.outOfLineCapacity else pure object

/-- Stores a field of a new object, if it is a named property. -/
def storeNamedField (object butterfly : Reg) (t : Structure) (field : PromotedLocation × Reg) :
    Lower Unit :=
  match field.1 with
  | .namedProperty identifier =>
    match t.offsetOf? identifier with
    | none => do crash (.noSlotFor t.id ((← read).graph.identifier identifier))
    | some offset => storeProperty field.2 (if offset.isInline then object else butterfly) offset
  | _ => return ()

instance {R : Law} [R.Codes] (object : Reg) (t : Structure) : Obeys R (newStorage object t) := by
  unfold newStorage
  infer_instance

instance {R : Law} [R.Codes] (object butterfly : Reg) (t : Structure)
    (field : PromotedLocation × Reg) :
    Obeys R (storeNamedField object butterfly t field) := by
  unfold storeNamedField
  split
  · split <;> infer_instance
  · infer_instance

theorem storeNamedFields_eq {object : Reg} {locations : List PromotedLocation} {values : List Reg} :
    storeNamedFields object t locations values = (do
      let butterfly ← newStorage object t
      (locations.zip values).forM (storeNamedField object butterfly t)) := by
  simp only [storeNamedFields, newStorage]
  by_cases hpos : 0 < t.outOfLineCapacity
  · simp only [if_pos hpos]
    congr 1
  · simp only [if_neg hpos]
    congr 1

theorem newStorage_builds {object : Reg} (hlayout : env.layout.KeepsFields)
    (hx : c.Has b env.context .i64 x) (ha : c.Has b object .i64 a) :
    Builds m x env b c (newStorage object t) fun r b' c' ps xs => ∃ base,
      (t.outOfLineCapacity ≠ 0 → 8 + 8 * t.outOfLineCapacity < 0x100000000 ∧
        c'.Has b' r .i64 (storageEnd t base)) ∧
        ps = storagePieces t base ∧ (∀ y ∈ xs, InObject env.layout t a base y) ∧
        storageLengths env.layout t base ⊆ xs := by
  have hbehind := hlayout.behind
  have hroom : (16 : Int) ≤ env.layout.objectBytes t := by
    simp only [ObjectLayout.objectBytes]
    omega
  unfold newStorage storagePieces storageLengths
  split
  · rename_i hpos
    have hcap : t.outOfLineCapacity ≠ 0 := by omega
    simp only [if_neg hcap]
    refine (attachButterfly_builds hlayout hx ha).mono ?_
    rintro r b' c' ps xs ⟨hsize, base, hr, rfl, hin, hmarks⟩
    refine ⟨base, fun _ => ⟨hsize, hr⟩, rfl, fun y hy => ?_, hmarks⟩
    rcases hin y hy with ⟨k, hk, hlo, hhi⟩ | h
    · refine .inr ⟨hcap, 8 + 8 * t.outOfLineCapacity + k, ?_, by omega, by omega⟩
      rw [hk, displace_displace]
    · exact .inl (h.mono (by omega) hroom)
  · have hcap : t.outOfLineCapacity = 0 := by omega
    simp only [if_pos hcap]
    exact .pure fun _ => ⟨0, fun h => absurd hcap h, rfl, nofun, List.nil_subset _⟩

theorem storeNamedField_fills {object butterfly r : Reg} {base w : Word} {ty : Ty}
    {location : PromotedLocation}
    (hlayout : env.layout.KeepsFields) (ht : t.Orderly) (ha : c.Has b object .i64 a)
    (hb : t.outOfLineCapacity ≠ 0 → 8 + 8 * t.outOfLineCapacity < 0x100000000 ∧
      c.Has b butterfly .i64 (storageEnd t base))
    (hr : c.Has b r ty w) :
    Fills m x env b c (storeNamedField object butterfly t (location, r))
      (InObject env.layout t a base)
      (fieldStore env.layout t a (storageEnd t base) (location, w)) := by
  have hbehind := hlayout.behind
  have hfew := ht.few
  have hfirst : PropertyOffset.firstOutOfLine = 100 := rfl
  unfold storeNamedField fieldStore
  dsimp only
  split
  case h_2 => exact .pure
  rename_i identifier
  cases ho : t.offsetOf? identifier with
  | none =>
    intro _ _ _ _ _ _ h
    cases h
  | some o =>
    obtain ⟨entry, hmem, rfl⟩ := Structure.mem_of_offsetOf? ho
    dsimp only
    cases hinline : entry.offset.isInline with
    | true =>
      have hindex := ht.inline entry hmem hinline
      refine .ofRead (.ofCheck fun {k} hk => ?_)
      obtain ⟨rfl, hlo, hhi⟩ := ObjectLayout.propertyOffset_ok (by omega) hk
      refine store_fills hr ha hlo hhi (.inl ⟨_, rfl, ?_⟩)
      simp only [PropertyOffset.distance, hinline, if_true, ObjectLayout.objectBytes,
        MemWidth.bytes]
      omega
    | false =>
      have hindex := Nat.lt_of_lt_of_le (ht.outOfLine entry hmem hinline) t.outOfLineSize_le
      obtain ⟨hsize, hb⟩ := hb (by omega)
      have hnumber : entry.offset.outOfLineIndex = entry.offset.index - 100 := rfl
      refine .ofRead (.ofCheck fun {k} hk => ?_)
      obtain ⟨rfl, hlo, hhi⟩ := ObjectLayout.propertyOffset_ok (by omega) hk
      refine store_fills hr hb hlo hhi
        (.inr ⟨by omega, 8 + 8 * t.outOfLineCapacity + entry.offset.distance env.layout, ?_, ?_⟩)
      · simp only [Bool.false_eq_true, if_false, storageEnd, displace_displace]
      · simp only [PropertyOffset.distance, hinline, Bool.false_eq_true, if_false, MemWidth.bytes]
        omega

/-- What is stored into a new object with fields. -/
def objectStores (layout : ObjectLayout) (t : Structure) (a base : Word)
    (fields : List (PromotedLocation × Word)) : List Stored :=
  inlineSlots layout t a ++ storageLengths layout t base ++
    fields.flatMap (fieldStore layout t a (storageEnd t base))

/-- A new object with fields: what it asks for, and what it stores there. -/
theorem materializeAs_builds {locations : List PromotedLocation} {values : List Reg}
    {ws : List Word} (hlayout : env.layout.KeepsFields) (ht : t.Orderly)
    (hx : c.Has b env.context .i64 x) (hvalues : HoldAll b c values ws) :
    Builds m x env b c (materializeAs t locations values) fun r b' c' ps xs => ∃ a base,
      c'.Has b' r .i64 a ∧
      ps = ⟨a, env.layout.objectBytes t⟩ :: storagePieces t base ∧
      (∀ y ∈ xs, ∃ p ∈ ps, y.Inside p) ∧
      objectStores env.layout t a base (locations.zip ws) ⊆ xs := by
  unfold materializeAs
  simp only [storeNamedFields_eq, bind_assoc]
  refine .bind (allocateObject_builds hlayout ht.few hx) fun {r b₁ c₁ ps₁ xs₁} e₁ hregs₁ ⟨a, ha,
    hps₁, hin₁, hslots⟩ => ?_
  refine .bind (newStorage_builds hlayout (hx.retain e₁ hregs₁) ha)
    fun {butterfly b₂ c₂ ps₂ xs₂} e₂ hregs₂ h₂ => ?_
  obtain ⟨base, hb, hps₂, hin₂, hlengths⟩ := h₂
  replace ha := ha.retain e₂ hregs₂
  have hfields : Fills m x env b₂ c₂ ((locations.zip values).forM (storeNamedField r butterfly t))
    (InObject env.layout t a base)
      ((locations.zip ws).flatMap (fieldStore env.layout t a (storageEnd t base))) := by
    refine .forM₂ (((hvalues.retain e₁ hregs₁).retain e₂ hregs₂).zip locations) ?_
    rintro ⟨_, r⟩ ⟨location, w⟩ - ⟨rfl, ty, hr⟩ b' c' e hregs
    exact storeNamedField_fills hlayout ht (ha.retain e hregs) (fun hcap => (hb hcap).imp_right
      fun h => h.retain e hregs)
      (hr.retain e hregs)
  refine .bind hfields fun {_ b₃ c₃ ps₃ xs₃} e₃ hregs₃ ⟨hps₃, hin₃, hmarks⟩ => .pure fun hf => ?_
  have hps : ps₁ ++ (ps₂ ++ (ps₃ ++ [])) = ⟨a, env.layout.objectBytes t⟩ :: storagePieces t base :=
    by simp [hps₁, hps₂, hps₃]
  refine ⟨a, base, (ha.retain e₃ hregs₃).later hf, hps, fun y hy => ?_, ?_⟩
  · rw [hps]
    rw [List.append_nil, List.mem_append, List.mem_append] at hy
    rcases hy with hy | hy | hy
    · exact InObject.inside (.inl (hin₁ y hy))
    · exact (hin₂ y hy).inside
    · exact (hin₃ y hy).inside
  · rw [objectStores, List.append_nil, List.append_assoc]
    exact List.append_subset.2 ⟨List.subset_append_of_subset_left _ hslots,
      List.subset_append_of_subset_right _
      (List.append_subset.2 ⟨List.subset_append_of_subset_left _ hlengths,
        List.subset_append_of_subset_right _ hmarks⟩)⟩

/-! ## Activations -/

/-- The bytes of an activation. -/
def activationBytes (layout : ObjectLayout) (t : Structure) : Nat :=
  (layout.fieldOffset .activationVariables).toNat + 8 * t.inlineCapacity

/-- The store of a field of an activation, if it is a variable or the table of symbols. -/
def scopeFieldStore (layout : ObjectLayout) (a : Word) (field : PromotedLocation × Word) :
    List Stored :=
  match field.1 with
  | .closureVar index =>
    [⟨displace a (layout.fieldOffset .activationVariables + 8 * index), 8, field.2⟩]
  | .activationSymbolTable => [⟨displace a (layout.fieldOffset .activationSymbolTable), 8, field.2⟩]
  | _ => []

/-- What is stored into a new activation, whose variables are `undefined`. -/
def activationStores (layout : ObjectLayout) (t : Structure) (a scope : Word) : List Stored :=
  [⟨displace a (layout.fieldOffset .scopeNext), 8, scope⟩] ++
    ([⟨displace a (layout.fieldOffset .activationSymbolTable), 8, 0⟩] ++
    (List.range t.inlineCapacity).flatMap fun (i : Nat) =>
      [⟨displace a (layout.fieldOffset .activationVariables + 8 * i), 8, Value.undefined⟩])

/-- Makes the variables of a new activation `undefined`. -/
def fillVariables (layout : ObjectLayout) (cell value : Reg) (count : Nat) : Lower Unit :=
  (List.range count).forM fun index => do
    Emit.store64 value cell (← layout.closureVarOffset index)

/-- What is stored into the cell of a new activation. -/
def initializeActivation (layout : ObjectLayout) (cell scope : Reg) (t : Structure) :
    Lower Unit := do
  initializeHeader cell t
  storeField .w64 scope cell .scopeNext
  storeField .w64 (← Emit.int64 0) cell .activationSymbolTable
  fillVariables layout cell (← Emit.word Value.undefined) t.inlineCapacity

instance {R : Law} [R.Codes] (layout : ObjectLayout) (cell value : Reg) (count : Nat) :
    Obeys R (fillVariables layout cell value count) := by
  unfold fillVariables
  infer_instance

instance {R : Law} [R.Codes] (layout : ObjectLayout) (cell scope : Reg) (t : Structure) :
    Obeys R (initializeActivation layout cell scope t) := by
  unfold initializeActivation
  infer_instance

theorem allocateActivation_eq : allocateActivation t scope = (do
    let layout := (← read).layout
    let bytes ← layout.closureVarOffset t.inlineCapacity
    let activation ← allocateCell (bytes % 0x100000000).toNat
    initializeActivation layout activation scope t
    return activation) := by
  simp only [allocateActivation, initializeActivation, fillVariables, bind_assoc]

/-- There are not too many variables for the numbers of their places. -/
theorem allocateActivation_small {s s' : State} {r : Reg}
    (h : allocateActivation t scope env s = .ok (r, s')) :
    t.inlineCapacity ≤ 2 ^ 28 := by
  rw [allocateActivation_eq, read_bind] at h
  obtain ⟨_, -, h⟩ := check_bind_ok h
  obtain ⟨cell, s₁, -, h⟩ := bind_ok h
  obtain ⟨_, s₂, hcell, -⟩ := bind_ok h
  obtain ⟨_, s₃, -, hcell⟩ := bind_ok hcell
  obtain ⟨_, s₄, -, hcell⟩ := bind_ok hcell
  obtain ⟨_, s₅, -, hcell⟩ := bind_ok hcell
  obtain ⟨_, s₆, -, hcell⟩ := bind_ok hcell
  obtain ⟨_, s₇, -, hcell⟩ := bind_ok hcell
  by_contra hmany
  obtain ⟨s₈, s₉, hturn⟩ := ran_of_forM hcell (2 ^ 28) (List.mem_range.2 (by omega))
  obtain ⟨k, hk, -⟩ := check_bind_ok hturn
  have := (Offset.slot_ok (by omega) hk).2.1
  omega

/-- The place of a variable, as far as there are as many. -/
theorem closureVarOffset_ok {layout : ObjectLayout} {i : Nat} {k : Int}
    (hlayout : layout.KeepsFields) (hi : i ≤ 2 ^ 28) (h : layout.closureVarOffset i = .ok k) :
    k = layout.fieldOffset .activationVariables + 8 * i ∧ 32 ≤ k ∧ k < 0x80000000 := by
  obtain ⟨hk, -, hlt⟩ := Offset.slot_ok (by omega) h
  have hfield : layout.fieldOffset .activationVariables = 32 := hlayout.field _ (by decide)
  omega

theorem initializeActivation_fills {w : Word} {ty : Ty} (hlayout : env.layout.KeepsFields)
    (hsmall : t.inlineCapacity ≤ 2 ^ 28) (ha : c.Has b cell .i64 a) (hscope : c.Has b scope ty w) :
    Fills m x env b c (initializeActivation env.layout cell scope t)
      (·.In a 0 (activationBytes env.layout t))
      (activationStores env.layout t a w) := by
  have hvariables : env.layout.fieldOffset .activationVariables = 32 := hlayout.field _ (by decide)
  have hbytes : activationBytes env.layout t = 32 + 8 * t.inlineCapacity := by
    rw [activationBytes, hvariables]
    rfl
  have hscopeNext : env.layout.fieldOffset .scopeNext = 16 := hlayout.field _ (by decide)
  have hsymbols : env.layout.fieldOffset .activationSymbolTable = 24 := hlayout.field _ (by decide)
  rw [activationStores, hscopeNext, hsymbols]
  refine .andThen ((initializeHeader_fills hlayout ha).mono
    (fun _ h => h.mono (by omega) (by omega)) fun _ h => h) fun e₁ hregs₁ => ?_
  replace ha := ha.retain e₁ hregs₁
  refine .bind (storeField_fills (k := 16) hscopeNext (hscope.retain e₁ hregs₁) ha (by decide)
    (by decide)
    ⟨16, rfl, by decide, by simp only [MemWidth.bytes]; omega⟩) fun e₂ hregs₂ => ?_
  refine .value (.ofEmit (Emit.int64_yieldsIn 0)) fun {zero b₂ c₂} hf hzero => ?_
  replace ha := (ha.retain e₂ hregs₂).later hf
  refine .bind (storeField_fills (k := 24) hsymbols hzero ha (by decide) (by decide)
    ⟨24, rfl, by decide, by simp only [MemWidth.bytes]; omega⟩) fun e₃ hregs₃ => ?_
  refine .value (.ofEmit (Emit.word_yieldsIn _)) fun {undefined b₃ c₃} hf' hundefined => ?_
  replace ha := (ha.retain e₃ hregs₃).later hf'
  refine .forM ?_
  intro i hi b' c' e hregs
  refine .ofCheck fun {k} hk => ?_
  have hi := List.mem_range.1 hi
  obtain ⟨rfl, hlo, hhi⟩ := closureVarOffset_ok hlayout (by omega) hk
  refine store_fills (hundefined.retain e hregs) (ha.retain e hregs) (by omega) hhi ⟨_, rfl,
    by omega, ?_⟩
  simp only [hvariables, MemWidth.bytes]
  omega

/-- A new activation: a cell with its header, the scope that it is below, no table of symbols, and
variables that are `undefined`. -/
theorem allocateActivation_builds {w : Word} {ty : Ty} (hlayout : env.layout.KeepsFields)
    (hx : c.Has b env.context .i64 x) (hscope : c.Has b scope ty w) :
    Builds m x env b c (allocateActivation t scope) fun r b' c' ps xs => t.inlineCapacity ≤ 2 ^ 28 ∧
      ∃ a, c'.Has b' r .i64 a ∧
      ps = [⟨a, activationBytes env.layout t⟩] ∧ (∀ y ∈ xs, y.In a 0 (activationBytes env.layout t))
        ∧
      activationStores env.layout t a w ⊆ xs := by
  refine Acts.ofRun fun h => ?_
  have hsmall := allocateActivation_small h
  rw [allocateActivation_eq]
  refine Builds.ofRead ?_
  dsimp only
  refine .ofCheck fun {k} hk => ?_
  obtain ⟨rfl, hlo, hhi⟩ := closureVarOffset_ok hlayout hsmall hk
  have hbytes : ((env.layout.fieldOffset .activationVariables + 8 * t.inlineCapacity) %
    0x100000000).toNat =
      activationBytes env.layout t := by
    have hvariables : env.layout.fieldOffset .activationVariables = 32 :=
      hlayout.field _ (by decide)
    rw [activationBytes]
    omega
  rw [hbytes]
  refine .bind (.ofFresh (allocateCell_acts hx)) fun {r b₁ c₁ ps xs} e hregs hfresh => ?_
  obtain ⟨a, ha, rfl, rfl⟩ := hfresh
  refine .bind (initializeActivation_fills hlayout hsmall ha (hscope.retain e hregs))
    fun {_ b₂ c₂ ps xs} e₂ hregs₂ ⟨hps, hin, hmarks⟩ =>
    .pure fun hf => ?_
  exact ⟨hsmall, a, (ha.retain e₂ hregs₂).later hf,
    by simp [hps], by simpa using hin, by simpa using hmarks⟩

/-- Stores a field of a new activation, if it is a variable or the table of symbols. -/
def storeScopeField (activation : Reg) (field : PromotedLocation × Reg) : Lower Unit :=
  match field.1 with
  | .closureVar index =>
    do Emit.store64 field.2 activation (← (← read).layout.closureVarOffset index)
  | .activationSymbolTable => storeField .w64 field.2 activation .activationSymbolTable
  | _ => return ()

instance {R : Law} [R.Codes] (activation : Reg) (field : PromotedLocation × Reg) :
    Obeys R (storeScopeField activation field) := by
  unfold storeScopeField
  split <;> infer_instance

theorem storeScopeField_fills {activation r : Reg} {w : Word} {ty : Ty}
    {location : PromotedLocation} (hlayout : env.layout.KeepsFields)
    (hsmall : t.inlineCapacity ≤ 2 ^ 28)
    (hindex : ∀ i, location = .closureVar i → i < t.inlineCapacity) (ha : c.Has b activation .i64 a)
    (hr : c.Has b r ty w) :
    Fills m x env b c (storeScopeField activation (location, r))
      (·.In a 0 (activationBytes env.layout t))
      (scopeFieldStore env.layout a (location, w)) := by
  have hvariables : env.layout.fieldOffset .activationVariables = 32 := hlayout.field _ (by decide)
  have hsymbols : env.layout.fieldOffset .activationSymbolTable = 24 := hlayout.field _ (by decide)
  have hbytes : activationBytes env.layout t = 32 + 8 * t.inlineCapacity := by
    rw [activationBytes, hvariables]
    rfl
  unfold storeScopeField scopeFieldStore
  dsimp only
  split
  · rename_i i
    have hi := hindex i rfl
    refine .ofRead (.ofCheck fun {k} hk => ?_)
    obtain ⟨rfl, hlo, hhi⟩ := closureVarOffset_ok hlayout (by omega) hk
    refine store_fills hr ha (by omega) hhi ⟨_, rfl, by omega, ?_⟩
    simp only [hvariables, MemWidth.bytes]
    omega
  · rw [hsymbols]
    exact storeField_fills (k := 24) hsymbols hr ha (by decide) (by decide) ⟨24, rfl,
      by decide, by simp only [MemWidth.bytes]; omega⟩
  · exact .pure

end

/-! ## Arrays -/

section

variable {σ : Type} {m : Machine σ} {env : Env} {x a v : Word} {b : Builder} {c : Config σ}
  {butterfly : Reg} {data : NewArrayData} {shape : ArrayType} {rs : List Reg} {ws : List Word}

/-- The stores of the elements of an array, from the first one on. -/
def elementStores (v : Word) (ws : List Word) : List Stored :=
  ws.zipIdx.flatMap fun p => [⟨displace v (8 * p.2), 8, p.1⟩]

theorem elementWidth_bytes (shape : ArrayType) : (elementWidth shape).bytes = 8 := by
  unfold elementWidth
  split <;> rfl

theorem elementWidth_encode (shape : ArrayType) (w : Word) : (elementWidth shape).encode w = w := by
  unfold elementWidth
  split <;> rfl

/-- There are not too many elements for the numbers of their places. -/
theorem storeElements_small {s s' : State} {u : Unit}
    (h : storeElements shape butterfly rs env s = .ok (u, s')) : rs.length ≤ 2 ^ 28 := by
  by_contra hmany
  have hlt : 2 ^ 28 < rs.length := by omega
  have hmem : (rs.get ⟨2 ^ 28, hlt⟩, 2 ^ 28) ∈ rs.zipIdx := by
    rw [List.mem_zipIdx_iff_getElem?]
    exact List.getElem?_eq_getElem hlt
  obtain ⟨s₁, s₂, hturn⟩ := ran_of_forM h _ hmem
  obtain ⟨k, hk, -⟩ := check_bind_ok hturn
  have := (Offset.slot_ok (by omega) hk).2.1
  omega

theorem storeElements_fills (hsmall : ws.length ≤ 2 ^ 28) (hb : c.Has b butterfly .i64 v)
    (h : HoldAll b c rs ws) :
    Fills m x env b c (storeElements shape butterfly rs) (·.In v 0 (8 * ws.length))
      (elementStores v ws) := by
  refine .forM₂ (h.zipIdx 0) ?_
  rintro ⟨r, i⟩ ⟨w, _⟩ hmem ⟨rfl, ty, hr⟩ b' c' e hregs
  refine .ofCheck fun {k} hk => ?_
  have hi := (List.mem_zipIdx hmem).2.1
  dsimp only at hk hi hr ⊢
  obtain ⟨rfl, -, hhi⟩ := Offset.slot_ok (by omega) hk
  rw [Int.zero_add] at hhi ⊢
  have hstore : Fills m x env b' c' (liftM (Emit.store (elementWidth shape) r butterfly (8 * i)))
    (·.In v 0 (8 * ws.length)) _ :=
    store_fills (hr.retain e hregs) (hb.retain e hregs) (by omega) hhi ⟨_, rfl,
      by omega, by simp only [elementWidth_bytes]; omega⟩
  rw [elementWidth_bytes, elementWidth_encode] at hstore
  exact hstore

theorem elementShape_ok {s s' : State} (h : elementShape data env s = .ok (shape, s')) :
    s' = s ∧ True := by
  simp only [elementShape] at h
  repeat' split at h
  all_goals cases h
  all_goals exact ⟨rfl, trivial⟩

set_option synthInstance.maxSize 4000 in
/-- A new array without elements of its own: the runtime's, or a cell and a butterfly with its
lengths. -/
theorem allocateArray_builds {n : Nat} (hlayout : env.layout.KeepsFields)
    (hfew : ∀ t, env.graph.structures.get? data.structureId = some t →
      t.inlineCapacity ≤ PropertyOffset.firstOutOfLine) (hn : n ≤ 2 ^ 28)
    (hx : c.Has b env.context .i64 x) :
    Builds m x env b c (allocateArray data n) fun r b' c' ps xs => ∃ a v, c'.Has b' r.1 .i64 a ∧
      c'.Has b' r.2 .i64 v ∧
      if env.options.maxInlineArrayAllocation < n then ps = [⟨v, 8 * n⟩] ∧ xs = []
      else ∃ t base, env.graph.structures.get? data.structureId = some t ∧ v = displace base 8 ∧
        ps = [⟨a, env.layout.objectBytes t⟩, ⟨base, 8 + 8 * n⟩] ∧
        (∀ y ∈ xs, y.In a 0 (env.layout.objectBytes t) ∨ y.In v (-8) (8 * n)) ∧
        inlineSlots env.layout t a ++ lengths env.layout v n ⊆ xs := by
  unfold allocateArray
  refine .ofLookup elementShape_ok fun {shape} _ => .ofRead ?_
  split
  · rename_i hlong
    refine .value (.ofEmit (Emit.int64_yieldsIn _)) fun {structureId b₁ c₁} hf₁ hid => ?_
    refine .value (.ofEmit (Emit.int64_yieldsIn _)) fun {count b₂ c₂} hf₂ hcount => ?_
    have hcall : Acts m .univ env b₂ c₂ (do
        let array ← callHelper .newArrayWithSize [structureId, count]
        return (array, ← loadField64 array .butterfly)) fun r b' c' => ∃ a v, c'.Has b' r.1 .i64 a ∧
          c'.Has b' r.2 .i64 v ∧
          Fresh m env.layout x c₂.memory ⟨v, 8 * n⟩ c'.memory := by
      refine Acts.bind (callHelper_acts (.cons ⟨_, hid.later hf₂⟩ (.cons ⟨_, hcount⟩ .nil)))
        fun {array b₃ c₃} e hregs hanswer => ?_
      obtain ⟨a, ha, hanswer⟩ := hanswer
      refine YieldsIn.andThen (loadField64_yieldsIn ha .butterfly trivial)
        fun {butterfly b₄ c₄} hf₄ hb => .pure fun hf₅ => ?_
      refine ⟨a, _, (ha.later hf₄).later hf₅, hb.later hf₅, ?_⟩
      rw [hf₅.memory, hf₄.memory]
      exact .elements hanswer
    refine Acts.mono hcall ?_
    rintro r b' c' ⟨a, v, ha, hv, hfresh⟩
    exact ⟨_, _, .fresh hfresh .nil, a, v, ha, hv, rfl, rfl⟩
  · refine .ofLookup getStructure_ok fun {t} ht => .ofRead (.ofCheck fun {size} hsize => ?_)
    obtain rfl := ObjectLayout.objectSize_ok hlayout hsize
    have hbehind := hlayout.behind
    have hroom : (16 : Int) ≤ env.layout.objectBytes t := by
      simp only [ObjectLayout.objectBytes]
      omega
    refine .bind (.ofFresh (allocateCell_acts hx)) fun {array b₁ c₁ ps₁ xs₁} e₁ hregs₁ hfresh => ?_
    obtain ⟨a, ha, rfl, rfl⟩ := hfresh
    replace hx := hx.retain e₁ hregs₁
    refine .bind (initializeHeader_fills hlayout ha) fun {_ b₂ c₂ ps₂ xs₂} e₂ hregs₂ h₂ => ?_
    obtain ⟨hps₂, hin₂, -⟩ := h₂
    refine .value (.ofEmit (Emit.word_yieldsIn _)) fun {undefined b₃ c₃} hf₃ hundefined => ?_
    replace ha := (ha.retain e₂ hregs₂).later hf₃
    replace hx := (hx.retain e₂ hregs₂).later hf₃
    refine .bind (fillInlineSlots_fills (hfew t ht) hlayout ha hundefined)
      fun {_ b₄ c₄ ps₄ xs₄} e₄ hregs₄ h₄ => ?_
    obtain ⟨hps₄, hin₄, hslots⟩ := h₄
    refine .value (.ofEmit (Emit.int32_yieldsIn _)) fun {count b₅ c₅} hf₅ hcount => ?_
    have hword : ofInt32 (Int32.ofInt (Offset.ofIndex n)) = UInt64.ofNat n := by
      rw [← UInt64.toNat_inj, Offset.toNat_ofIndex (by omega), UInt64.toNat_ofNat']
      omega
    rw [hword] at hcount
    replace ha := (ha.retain e₄ hregs₄).later hf₅
    replace hx := (hx.retain e₄ hregs₄).later hf₅
    refine .bind (allocateButterfly_builds hlayout hx hcount hcount (by omega))
      fun {butterfly b₆ c₆ ps₆ xs₆} e₆ hregs₆ h₆ => ?_
    obtain ⟨-, base, hb, hps₆, hin₆, hlengths⟩ := h₆
    have hend : displace base (8 + 8 * ((0 : Nat) : Int)) = displace base 8 := rfl
    rw [hend] at hb hin₆ hlengths
    refine .value (.ofEmit (holeOf_yieldsIn _)) fun {hole b₇ c₇} hf₇ hhole => ?_
    replace ha := (ha.retain e₆ hregs₆).later hf₇
    replace hb := hb.later hf₇
    refine .bind (storeElements_fills (by simpa using hn) hb (HoldAll.replicate hhole n))
      fun {_ b₈ c₈ ps₈ xs₈} e₈ hregs₈ h₈ => ?_
    obtain ⟨hps₈, hin₈, -⟩ := h₈
    replace ha := ha.retain e₈ hregs₈
    replace hb := hb.retain e₈ hregs₈
    have hlast : Fills m x env b₈ c₈ (storeField .w64 butterfly array .butterfly) (·.In a 8 16)
      [_] :=
      storeField_fills (k := 8) (hlayout.field _ (by decide)) hb ha (by decide) (by decide) ⟨8, rfl,
        by decide, by simp [MemWidth.bytes]⟩
    refine .bind hlast fun {_ b₉ c₉ ps₉ xs₉} e₉ hregs₉ h₉ => .pure fun hf => ?_
    obtain ⟨hps₉, hin₉, -⟩ := h₉
    refine ⟨a, _, (ha.retain e₉ hregs₉).later hf, (hb.retain e₉ hregs₉).later hf, t, base, ht, rfl,
      ?_, fun y hy => ?_, ?_⟩
    · simp [hps₂, hps₄, hps₆, hps₈, hps₉]
    · simp only [List.mem_append, List.not_mem_nil, false_or, or_false] at hy
      rw [List.length_replicate] at hin₈
      rcases hy with hy | hy | hy | hy | hy
      · exact .inl ((hin₂ y hy).mono (by omega) (by omega))
      · exact .inl (hin₄ y hy)
      · exact .inr ((hin₆ y hy).mono (by omega) (by omega))
      · exact .inr ((hin₈ y hy).mono (by omega) (by omega))
      · exact .inl ((hin₉ y hy).mono (by omega) hroom)
    · refine List.append_subset.2 ⟨fun y hy => ?_, fun y hy => ?_⟩
      · simp [hslots hy]
      · simp [hlengths hy]

end

end Lowering

end SpecJit
