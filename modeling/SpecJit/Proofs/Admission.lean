import SpecJit.Proofs.AbstractState
import SpecJit.Proofs.IntegralDouble
import SpecJit.Proofs.Kind

/-!
# Values that a fact admits

A fact of the analysis is about the value of a node and not about a word: a number may be counted by
the kinds of the encoding in which the node holds it, and boxed in another one.
`AbstractValue.Admits` says that the value of a word is among those that a fact allows. What the
analysis concludes from a fact holds of every value that the fact admits: the truth of a condition
(`conditionTruth?_eq`) and the answer to a type query (`answer?_eq`). A fact that tells the truth of
a condition leaves few words that are no numbers (`Plain`): the checks of uses see what these are.
-/

namespace SpecJit

open Lir

/-! ## Numbers as conditions -/

theorem Double.truthy_congr {a b : Double} (h : a.Same b) : a.truthy = b.truthy := by
  rcases h with rfl | ⟨ha, hb⟩
  · rfl
  · simp [truthy, ha, hb]

/-- An integer is true unless it is 0. -/
theorem Double.truthy_ofInt {n : Int} (h : n.natAbs < 2 ^ 53) :
    (ofInt n).truthy = decide (n ≠ 0) := by
  have hnan := ofInt_isNaN h
  have hzero : (zero false) = ofInt 0 := by decide
  by_cases h₀ : n = 0
  · subst h₀
    decide
  · rw [truthy, hnan, Bool.or_false, decide_eq_true h₀, Bool.not_eq_true']
    rw [← Bool.not_eq_true]
    intro heq
    rw [hzero] at heq
    exact h₀ (ofInt_injective h (by decide) (eq_of_numEq heq (ofInt_isNegativeZero h) (by decide)))

namespace Value

variable {layout : ObjectLayout} {memory : Memory} {w : Word} {d : Double}

theorem asNumber?_of_not (h : isNumber w = false) : asNumber? w = none := by
  have hint : isInt32 w = false := Bool.eq_false_iff.2 fun hint => by
    rw [isNumber_of_isInt32 hint] at h
    cases h
  simp [asNumber?, hint, h]

theorem isNumber_of_asNumber? (h : asNumber? w = some d) : isNumber w = true := by
  rw [← Bool.not_eq_false]
  intro hn
  rw [asNumber?_of_not hn] at h
  cases h

/-- A number is as true as the double that it is. -/
theorem truthy_number (h : asNumber? w = some d) : truthy layout memory w = d.truthy := by
  cases hint : isInt32 w with
  | true =>
    rw [asNumber?, if_pos hint] at h
    cases h
    rw [truthy_int32 hint, Double.truthy_ofInt (natAbs_lt_of_int32 _), Bool.eq_iff_iff, bne_iff_ne,
      decide_eq_true_iff, Ne, Ne, ← Int32.toInt_inj]
    rfl
  | false =>
    have hnumber := isNumber_of_asNumber? h
    simp only [asNumber?, hint, hnumber, Bool.false_eq_true, if_false, if_true, Option.some.injEq]
      at h
    simp [truthy, decode, hint, hnumber, Decoded.truthy, h]

/-! ## Kinds of numbers -/

/-- The kinds by which facts count the number of a word. An int32 may be held as a double, a double
may stand for an integer of 52 bits, and NaNs become canonical when they are boxed. -/
def numberKinds (w : Word) : SpecType :=
  if isInt32 w then .union (.ofInt32 (unboxInt32 w)) .int52AsDouble
  else if (unboxDouble w).isNaN then .union .doublePureNaN .doubleImpureNaN
  else .union .doubleReal .int52

/-- An integer that is held in two ways. -/
theorem numberKinds_subset (w : Word) : (numberKinds w).isSubsetOf .fullNumber = true := by
  unfold numberKinds SpecType.ofInt32
  repeat' split
  all_goals decide

end Value

/-! ## Admission -/

/-- The word holds the constant: the same number, or the constant's own word. Of a string it is
known whether it has text. -/
structure FrozenValue.Means (layout : ObjectLayout) (memory : Memory) (c : FrozenValue) (w : Word) :
    Prop where
  number : ∀ d, c.asNumber? = some d → ∃ d', Value.asNumber? w = some d' ∧ d'.Same d
  word : c.asNumber? = none → w = Value.ofFrozen c
  text : ∀ cell s, c = .cell cell → cell.string = some s →
    (Value.kindOf layout memory w).isSubsetOf .string = true ∧ Cell.hasText layout memory
      w = !s.text.isEmpty

/-- The kinds that a fact with the constant can have. -/
def FrozenValue.allKinds : FrozenValue → SpecType
  | .double d =>
    if d.isNaN then .union .doublePureNaN .doubleImpureNaN else .union .doubleReal .int52
  | c => c.kinds

namespace AbstractValue

/-- The value of the word is among those that the fact allows. -/
structure Admits (layout : ObjectLayout) (memory : Memory) (v : AbstractValue) (w : Word) :
    Prop where
  number : Value.isNumber w = true → v.ty.overlaps (Value.numberKinds w) = true
  other : Value.isNumber w = false → (Value.kindOf layout memory w).isSubsetOf v.ty = true
  constant : ∀ c, v.value = some c → c.Means layout memory w

/-- A fact with a constant has only kinds that the constant can have. -/
def Exact (v : AbstractValue) : Prop := ∀ c, v.value = some c → v.ty.isSubsetOf c.allKinds = true

variable {layout : ObjectLayout} {memory : Memory} {v : AbstractValue} {w : Word} {mask : SpecType}

/-- A fact that admits a number has kinds of numbers. -/
theorem Admits.overlaps (h : v.Admits layout memory w) (hw : Value.isNumber w = true) :
    v.ty.overlaps .fullNumber = true :=
  SpecType.overlaps_mono (h.number hw) (SpecType.subset_refl _) (Value.numberKinds_subset w)

/-- A fact without kinds of numbers admits none. -/
theorem Admits.isNumber_eq_false (h : v.Admits layout memory w) (hty : v.ty.isSubsetOf mask = true)
    (hmask : mask.overlaps .fullNumber = false) : Value.isNumber w = false := by
  rw [← Bool.not_eq_true]
  intro hw
  rw [SpecType.overlaps_mono (h.overlaps hw) hty (SpecType.subset_refl _)] at hmask
  cases hmask

/-- What is no number is of the kinds that the fact says. -/
theorem Admits.kind (h : v.Admits layout memory w) (hty : v.ty.isSubsetOf mask = true)
    (hmask : mask.overlaps .fullNumber = false) :
    (Value.kindOf layout memory w).isSubsetOf mask = true :=
  SpecType.subset_trans (h.other (h.isNumber_eq_false hty hmask)) hty

/-- A fact that admits a word has kinds. -/
theorem Admits.isEmpty_eq_false (h : v.Admits layout memory w) : v.ty.isEmpty = false := by
  rw [← Bool.not_eq_true]
  intro hempty
  rw [SpecType.isEmpty, beq_iff_eq] at hempty
  have hty : v.ty.isSubsetOf .none = true := by simp [SpecType.isSubsetOf, hempty]
  have hkind := h.kind hty (by decide)
  have hnone := SpecType.overlaps_of_subset (Value.kindOf_isEmpty layout memory w) hkind hkind
  exact absurd hnone (by decide)

end AbstractValue

/-! ## The truth of conditions -/

namespace Value

variable {layout : ObjectLayout} {memory : Memory} {w : Word}

/-- What the kinds of strings say of a word. -/
theorem string_of_subset (h : (kindOf layout memory w).isSubsetOf .string = true) :
    isCell w = true ∧ w ≠ empty ∧ Cell.tag layout memory w = CellType.string.tag := by
  have hne : w ≠ empty := ne_empty_of_subset (by decide) h
  have hpasses := (settled layout memory w (k := .string) rfl).taken hne (by simp) h
  rw [passes, passes.hasTag, Bool.and_eq_true, beq_iff_eq] at hpasses
  exact ⟨hpasses.1, hne, hpasses.2⟩

theorem truthy_string (h : (kindOf layout memory w).isSubsetOf .string = true) :
    truthy layout memory w = Cell.hasText layout memory w := by
  obtain ⟨hcell, hne, htag⟩ := string_of_subset h
  rw [truthy_cell hcell hne, if_pos htag]

end Value

/-- A constant that is known to be true or not. -/
theorem FrozenValue.Means.truthy_eq {layout : ObjectLayout} {memory : Memory} {c : FrozenValue}
    {w : Word} {t : Bool} (h : c.Means layout memory w) (ht : c.truthy? = some t) :
    Value.truthy layout memory w = t := by
  cases c with
  | empty => cases ht
  | undefined | null =>
    obtain rfl := h.word rfl
    cases ht
    rfl
  | boolean b =>
    obtain rfl := h.word rfl
    cases ht
    cases t <;> rfl
  | int32 n =>
    obtain ⟨d, hd, hsame⟩ := h.number _ rfl
    cases ht
    rw [Value.truthy_number hd, Double.truthy_congr hsame,
      Double.truthy_ofInt (Value.natAbs_lt_of_int32 n), Bool.eq_iff_iff, decide_eq_true_iff,
      bne_iff_ne, Ne, Ne, ← Int32.toInt_inj]
    rfl
  | double d =>
    obtain ⟨d', hd, hsame⟩ := h.number _ rfl
    cases ht
    rw [Value.truthy_number hd, Double.truthy_congr hsame]
    rfl
  | cell c =>
    cases hs : c.string with
    | none =>
      simp only [truthy?, hs] at ht
      cases ht
    | some text =>
      simp only [truthy?, hs, Option.map_some, Option.some.injEq] at ht
      obtain ⟨hkind, htext⟩ := h.text c text rfl hs
      rw [Value.truthy_string hkind, htext, ht]

/-- Only objects of the kind `objectOther` masquerade as `undefined`. -/
def Cell.OnlyOthersMasquerade (layout : ObjectLayout) (memory : Memory) : Prop :=
  ∀ w, Value.isCell w = true → masquerades layout memory w = true →
    (Value.kindOf layout memory w).isSubsetOf .objectOther = true

theorem Cell.OnlyOthersMasquerade.eq_false {layout : ObjectLayout} {memory : Memory} {w : Word}
    {ty : SpecType} (h : OnlyOthersMasquerade layout memory) (hcell : Value.isCell w = true)
    (hkind : (Value.kindOf layout memory w).isSubsetOf ty = true)
    (hty : ty.overlaps .objectOther = false) : masquerades layout memory w = false := by
  rw [← Bool.not_eq_true]
  intro hm
  rw [SpecType.overlaps_of_subset (Value.kindOf_isEmpty layout memory w) hkind (h w hcell hm)]
    at hty
  cases hty

namespace AbstractValue

variable {layout : ObjectLayout} {memory : Memory} {v : AbstractValue} {w : Word} {k : UseKind}
  {t : Bool}

/-- Why a condition is known: its constant is, or it is `null` or `undefined`, or it is an object
that does not masquerade. -/
theorem conditionTruth?_cases (h : v.conditionTruth? k = some t) :
    (∃ c, v.value = some c ∧ c.truthy? = some t) ∨ (v.ty.isSubsetOf .other = true ∧ t = false) ∨
      ((k = .untyped ∨ k = .objectOrOther) ∧ v.ty.isSubsetOf .object = true ∧
        v.ty.overlaps .objectOther = false ∧ t = true) := by
  unfold conditionTruth? truthy? at h
  cases hb : v.value.bind FrozenValue.truthy? with
  | some b =>
    rw [hb] at h
    cases h
    obtain ⟨c, hc, hct⟩ := Option.bind_eq_some_iff.1 hb
    exact .inl ⟨c, hc, hct⟩
  | none =>
    rw [hb] at h
    by_cases hother : v.ty.isOther = true
    · rw [if_pos hother] at h
      cases h
      rw [SpecType.isOther, SpecType.isOnly, Bool.and_eq_true] at hother
      exact .inr (.inl ⟨hother.2, rfl⟩)
    · rw [if_neg hother] at h
      dsimp only at h
      split at h
      · rename_i hobject
        cases h
        simp only [Bool.and_eq_true, Bool.or_eq_true, beq_iff_eq, isType, isNotType,
          Bool.not_eq_true'] at hobject
        exact .inr (.inr ⟨hobject.1.1.1, hobject.1.1.2, hobject.2, rfl⟩)
      · cases h

/-- A condition that is known is as the analysis says. -/
theorem conditionTruth?_eq (h : v.conditionTruth? k = some t) (hw : v.Admits layout memory w)
    (hmasq : Cell.OnlyOthersMasquerade layout memory) : Value.truthy layout memory w = t := by
  rcases conditionTruth?_cases h with ⟨c, hc, ht⟩ | ⟨hother, rfl⟩ | ⟨-, hobject, hno, rfl⟩
  · exact (hw.constant c hc).truthy_eq ht
  · exact Value.truthy_other (Value.isOther_of_subset (hw.kind hother (by decide)))
  · have hkind := hw.kind hobject (by decide)
    have hcell := Value.isCell_of_subset (SpecType.subset_trans hkind (by decide))
    rw [Value.truthy_object hcell (SpecType.subset_trans hkind (by decide)),
      hmasq.eq_false hcell (hw.other (hw.isNumber_eq_false hobject (by decide))) hno]
    rfl

end AbstractValue

/-! ## The answers to type queries -/

/-- The header is one of an object that is not callable and does not claim to be `undefined`. -/
def Cell.isPlainObject (layout : ObjectLayout) (memory : Memory) (cell : Word) : Bool :=
  hasObjectTag layout memory cell && tag layout memory cell != CellType.function.tag &&
    !masquerades layout memory cell

/-- The answer of a type query to a word. -/
def TypeQuery.holds (layout : ObjectLayout) (memory : Memory) (w : Word) : TypeQuery → Bool
  | .undefined => if Value.isCell w then Cell.masquerades layout memory w else w == Value.undefined
  | .boolean => Value.isBoolean w
  | .number => Value.isNumber w
  | .string => Value.isCell w && Cell.tag layout memory w == CellType.string.tag
  | .function => Value.isCell w && Cell.tag layout memory w == CellType.function.tag
  | .arrayObject => Value.isCell w && Cell.tag layout memory w == CellType.array.tag
  | .object => Value.isCell w && Cell.isPlainObject layout memory w
  | .objectOrNull => w == Value.null || Value.isCell w && Cell.isPlainObject layout memory w

namespace Value

variable {layout : ObjectLayout} {memory : Memory} {w : Word} {cellType : CellType}

/-- The kind of a cell that is no string, by its tag. -/
theorem kindOf_tag (hcell : isCell w = true) (hne : w ≠ empty)
    (htag : Cell.tag layout memory w = cellType.tag) (hs : cellType ≠ .string) :
    kindOf layout memory w = .ofCellType cellType := by
  rw [kindOf_cell hcell hne, Cell.kind, htag, ofTag?_tag]
  cases cellType <;> first | rfl | exact absurd rfl hs

/-- The tag of an object is that of an object type, or of no type. -/
theorem kindOf_hasObjectTag (hlayout : layout.firstObjectTag = CellType.firstObjectTag)
    (hcell : isCell w = true) (hne : w ≠ empty) (htag : Cell.hasObjectTag layout memory w = true) :
    (kindOf layout memory w).overlaps .object = true := by
  rw [kindOf_cell hcell hne, Cell.kind]
  cases htype : CellType.ofTag? (Cell.tag layout memory w) with
  | none =>
    change SpecType.cell.overlaps .object = true
    decide
  | some cellType =>
    have hlt := Cell.tag_lt layout memory w
    rw [Cell.hasObjectTag, hlayout, decide_eq_true_iff, UInt32.le_iff_toNat_le, UInt32.toNat_ofNat',
      UInt32.toNat_ofNat', Nat.mod_eq_of_lt (by decide), Nat.mod_eq_of_lt (by omega),
      ofTag?_eq_some htype] at htag
    have hs : cellType ≠ .string := by
      rintro rfl
      exact absurd htag (by decide)
    have hkind : (SpecType.ofCellType cellType).overlaps .object = true := by
      cases cellType with
      | typedArray kind => cases kind <;> decide
      | _ => first | decide | exact absurd htag (by decide)
    cases cellType <;> first | exact hkind | exact absurd rfl hs

/-- A word that is of one kind of objects is a cell with an object's tag. -/
theorem object_of_subset (hlayout : layout.firstObjectTag = CellType.firstObjectTag)
    (h : (kindOf layout memory w).isSubsetOf .object = true) :
    isCell w = true ∧ w ≠ empty ∧ Cell.hasObjectTag layout memory w = true := by
  have hne : w ≠ empty := ne_empty_of_subset (by decide) h
  have hpasses := (settled layout memory w (k := .object) rfl).taken hne (by simp [hlayout]) h
  rw [passes, Bool.and_eq_true] at hpasses
  exact ⟨hpasses.1, hne, hpasses.2⟩

theorem function_of_subset (h : (kindOf layout memory w).isSubsetOf .function = true) :
    isCell w = true ∧ Cell.tag layout memory w = CellType.function.tag := by
  have hpasses := (settled layout memory w (k := .function) rfl).taken
    (ne_empty_of_subset (by decide) h) (by simp) h
  rwa [passes, passes.hasTag, Bool.and_eq_true, beq_iff_eq] at hpasses

/-- What is no number is of no kind of numbers. -/
theorem not_subset_fullNumber (h : isNumber w = false) :
    (kindOf layout memory w).isSubsetOf .fullNumber = false := by
  cases hcell : isCell w with
  | true =>
    by_cases hne : w = empty
    · subst hne
      rw [kindOf_empty]
      decide
    · have hkind : (kindOf layout memory w).isSubsetOf .cell = true :=
        subset_of_passes (k := .cell) rfl hcell (by simp [overlooked, UseKind.isCell, hne])
      have hover := SpecType.overlaps_of_subset (kindOf_isEmpty layout memory w)
        (SpecType.subset_refl _) hkind
      exact SpecType.not_subset_of_overlaps hover (by decide)
  | false =>
    cases hboolean : isBoolean w with
    | true =>
      rw [kindOf_boolean hboolean]
      decide
    | false =>
      cases hother : isOther w with
      | true =>
        rw [kindOf_other hother]
        decide
      | false =>
        rw [kindOf_invalid (by simp [isInvalid, isMisc, h, hcell, hboolean, hother])]
        decide

end Value

section Queries

variable {layout : ObjectLayout} {memory : Memory} {v : AbstractValue} {w : Word} {q : TypeQuery}
  {t : Bool}

/-- The header that is read of the empty value is not one of a string or of an object. -/
def Cell.EmptyHeader (layout : ObjectLayout) (memory : Memory) : Prop :=
  tag layout memory Value.empty ≠ CellType.string.tag ∧ hasObjectTag layout memory
    Value.empty = false

theorem Cell.EmptyHeader.tag_ne_function (h : EmptyHeader layout memory)
    (hlayout : layout.firstObjectTag = CellType.firstObjectTag) :
    tag layout memory Value.empty ≠ CellType.function.tag := by
  intro htag
  have hobject := Value.hasObjectTag_of_isObject (Nat.le_of_eq hlayout) htag (by decide)
  rw [h.2] at hobject
  cases hobject

/-- A query that is decided by the kinds of a fact. -/
theorem TypeQuery.answer?_cases {ty : SpecType} (h : q.answer? ty = some t) : match q with
    | .undefined => t = false ∧ ty.overlaps (.union .other .objectOther) = false
    | .boolean =>
      ty.isSubsetOf .boolean = true ∧ t = true ∨ ty.overlaps .boolean = false ∧ t = false
    | .number =>
      ty.isSubsetOf .fullNumber = true ∧ t = true ∨ ty.overlaps .fullNumber = false ∧ t = false
    | .string => ty.isSubsetOf .string = true ∧ t = true ∨ ty.overlaps .string = false ∧ t = false
    | .function =>
      ty.isSubsetOf .function = true ∧ t = true ∨
        ty.overlaps (.union .function .objectOther) = false ∧ t = false
    | .object =>
      ty.isSubsetOf (SpecType.object.without (.union .function .objectOther)) = true ∧ t = true ∨
        ty.overlaps .object = false ∧ t = false
    | .objectOrNull => t = false ∧ ty.overlaps (.union .object .other) = false
    | .arrayObject => False := by
  unfold answer? at h
  split at h
  · cases h
  · cases q with
    | arrayObject => cases h
    | _ =>
      dsimp only at h ⊢
      split at h
      · first
        | exact absurd ‹false = true› Bool.false_ne_true
        | (cases h; rename_i hyes; first
            | exact .inl ⟨hyes, rfl⟩
            | exact .inl ⟨(Bool.and_eq_true_iff.1 hyes).2, rfl⟩)
      · split at h
        · cases h
          rename_i hno
          rw [Bool.not_eq_true'] at hno
          first
            | exact .inr ⟨hno, rfl⟩
            | exact ⟨rfl, hno⟩
        · cases h

/-- A word that is no number is of no kinds that the fact rules out. -/
theorem AbstractValue.Admits.ruledOut {mask : SpecType} (h : v.Admits layout memory w)
    (hw : Value.isNumber w = false) (hty : v.ty.overlaps mask = false) :
    (Value.kindOf layout memory w).overlaps mask = false := by
  rw [← Bool.not_eq_true]
  intro hover
  rw [SpecType.overlaps_mono hover (h.other hw) (SpecType.subset_refl _)] at hty
  cases hty

/-- A fact that rules out objects rules out their headers. -/
theorem AbstractValue.Admits.not_plainObject {mask : SpecType} (h : v.Admits layout memory w)
    (hlayout : layout.firstObjectTag = CellType.firstObjectTag)
    (hempty : w = Value.empty → Cell.EmptyHeader layout memory) (hty : v.ty.overlaps mask = false)
    (hmask : SpecType.object.isSubsetOf mask = true) :
    (Value.isCell w && Cell.isPlainObject layout memory w) = false := by
  rw [← Bool.not_eq_true]
  intro hobject
  simp only [Cell.isPlainObject, Bool.and_eq_true] at hobject
  obtain ⟨hcell, ⟨htag, -⟩, -⟩ := hobject
  by_cases hne : w = Value.empty
  · subst hne
    rw [(hempty rfl).2] at htag
    cases htag
  · have hover := SpecType.overlaps_mono (Value.kindOf_hasObjectTag hlayout hcell hne htag)
      (SpecType.subset_refl _) hmask
    rw [h.ruledOut (Value.tests_of_isCell hcell).2.1 hty] at hover
    cases hover

/-- A type query that is decided has the answer that the analysis gives. -/
theorem TypeQuery.answer?_eq (h : q.answer? v.ty = some t) (hw : v.Admits layout memory w)
    (hlayout : layout.firstObjectTag = CellType.firstObjectTag)
    (hmasq : Cell.OnlyOthersMasquerade layout memory)
    (hempty : w = Value.empty → Cell.EmptyHeader layout memory) : q.holds layout memory w = t := by
  have hcases := answer?_cases h
  -- a word of a kind is not one that the fact rules out
  have hno {kind mask : SpecType} (hnumber : Value.isNumber w = false)
    (hkind : Value.kindOf layout memory w = kind)
      (hty : v.ty.overlaps mask = false) (hmask : kind.overlaps mask = true) : False := by
    rw [← hkind, hw.ruledOut hnumber hty] at hmask
    cases hmask
  cases q with
  | undefined =>
    obtain ⟨rfl, hty⟩ := hcases
    rw [holds]
    cases hcell : Value.isCell w with
    | true =>
      rw [if_pos rfl]
      have hkind := hw.other (Value.tests_of_isCell hcell).2.1
      refine hmasq.eq_false hcell hkind ?_
      rw [← Bool.not_eq_true]
      intro hover
      rw [SpecType.overlaps_mono hover (SpecType.subset_refl _) (by decide)] at hty
      cases hty
    | false =>
      rw [if_neg Bool.false_ne_true, beq_eq_false_iff_ne]
      rintro rfl
      exact hno (by decide) (Value.kindOf_other (by decide)) hty (by decide)
  | boolean =>
    rcases hcases with ⟨hty, rfl⟩ | ⟨hty, rfl⟩
    · exact Value.isBoolean_of_subset (hw.kind hty (by decide))
    · rw [holds, ← Bool.not_eq_true]
      intro hboolean
      refine hno ?_ (Value.kindOf_boolean hboolean) hty (by decide)
      rcases Value.isBoolean_iff.1 hboolean with rfl | rfl <;> decide
  | number =>
    rcases hcases with ⟨hty, rfl⟩ | ⟨hty, rfl⟩
    · rw [holds, ← Bool.not_eq_false]
      intro hnumber
      have hkind := SpecType.subset_trans (hw.other hnumber) hty
      rw [Value.not_subset_fullNumber hnumber] at hkind
      cases hkind
    · rw [holds, ← Bool.not_eq_true]
      intro hnumber
      rw [hw.overlaps hnumber] at hty
      cases hty
  | string =>
    rcases hcases with ⟨hty, rfl⟩ | ⟨hty, rfl⟩
    · obtain ⟨hcell, -, htag⟩ := Value.string_of_subset (hw.kind hty (by decide))
      rw [holds, hcell, htag]
      rfl
    · rw [holds, ← Bool.not_eq_true, Bool.and_eq_true, beq_iff_eq]
      rintro ⟨hcell, htag⟩
      by_cases hne : w = Value.empty
      · subst hne
        exact (hempty rfl).1 htag
      · refine hno (Value.tests_of_isCell hcell).2.1 (Value.kindOf_string hcell hne htag) hty ?_
        split <;> decide
  | function =>
    rcases hcases with ⟨hty, rfl⟩ | ⟨hty, rfl⟩
    · obtain ⟨hcell, htag⟩ := Value.function_of_subset (hw.kind hty (by decide))
      rw [holds, hcell, htag]
      rfl
    · rw [holds, ← Bool.not_eq_true, Bool.and_eq_true, beq_iff_eq]
      rintro ⟨hcell, htag⟩
      by_cases hne : w = Value.empty
      · subst hne
        exact (hempty rfl).tag_ne_function hlayout htag
      · exact hno (Value.tests_of_isCell hcell).2.1 (Value.kindOf_tag hcell hne htag (by decide))
          hty (by decide)
  | object =>
    rcases hcases with ⟨hty, rfl⟩ | ⟨hty, rfl⟩
    · have hkind := hw.kind hty (by decide)
      obtain ⟨hcell, hne, htag⟩ :=
        Value.object_of_subset hlayout (SpecType.subset_trans hkind (by decide))
      have hcallable : Cell.tag layout memory w ≠ CellType.function.tag := fun hfunction => by
        rw [Value.kindOf_tag hcell hne hfunction (by decide)] at hkind
        exact absurd hkind (by decide)
      rw [holds, hcell, Cell.isPlainObject, htag, hmasq.eq_false hcell hkind (by decide),
        bne_iff_ne.2 hcallable]
      rfl
    · exact hw.not_plainObject hlayout hempty hty (SpecType.subset_refl _)
  | objectOrNull =>
    obtain ⟨rfl, hty⟩ := hcases
    rw [holds, hw.not_plainObject hlayout hempty hty (by decide), Bool.or_false,
      beq_eq_false_iff_ne]
    rintro rfl
    exact hno (by decide) (Value.kindOf_other (by decide)) hty (by decide)
  | arrayObject => exact hcases.elim

end Queries

/-! ## After checks -/

namespace Value

variable {layout : ObjectLayout} {memory : Memory} {w : Word} {ty : SpecType}

/-- The kinds of a double are none of an int32. -/
theorem int32_overlaps_numberKinds (h : isInt32 w = false) :
    SpecType.int32.overlaps (numberKinds w) = false := by
  rw [numberKinds, if_neg (Bool.eq_false_iff.1 h)]
  split <;> decide

/-- Kinds by which a number is counted do not mislead the test of its truth. -/
theorem judged_of_overlaps (h : ty.overlaps (numberKinds w) = true) :
    Judged layout memory ty w := by
  have hover := SpecType.overlaps_mono h (SpecType.subset_refl _) (numberKinds_subset w)
  refine ⟨fun hty => ?_, fun _ hty => ?_, fun _ hty => ?_⟩
  · rw [SpecType.not_subset_of_overlaps hover (by decide)] at hty
    cases hty
  · refine truthy_int32 ?_
    rw [← Bool.not_eq_false]
    intro hint
    rw [SpecType.not_subset_of_overlaps h (int32_overlaps_numberKinds hint)] at hty
    cases hty
  · rw [SpecType.not_subset_of_overlaps hover (by decide)] at hty
    cases hty

end Value

namespace AbstractValue

variable {layout : ObjectLayout} {memory : Memory} {v : AbstractValue} {w : Word} {mask : SpecType}
  {c : FrozenValue}

/-- A fact is true of what it admits, numbers apart. -/
theorem Admits.describes (h : v.Admits layout memory w) (he : v.Exact)
    (hw : Value.isNumber w = false) :
    v.Describes (Value.kindOf layout memory w) where
  inhabited := Value.kindOf_isEmpty layout memory w
  allowed := h.other hw
  constant c hc := by
    have hsub := SpecType.subset_trans (h.other hw) (he c hc)
    cases c with
    | double d =>
      obtain ⟨d', hd, -⟩ := (h.constant _ hc).number d rfl
      rw [Value.isNumber_of_asNumber? hd] at hw
      cases hw
    | _ => exact hsub

/-- A constant that a number has is a number. -/
theorem Admits.numeric (h : v.Admits layout memory w) (he : v.Exact) (hw : Value.isNumber w = true)
    (hc : v.value = some c) :
    (∃ n, c = .int32 n) ∨ ∃ d, c = .double d := by
  have hno (hkinds : c.allKinds.overlaps .fullNumber = false) : False := by
    rw [h.isNumber_eq_false (he c hc) hkinds] at hw
    cases hw
  cases c with
  | int32 n => exact .inl ⟨n, rfl⟩
  | double d => exact .inr ⟨d, rfl⟩
  | _ =>
    exact (hno
      (by simp only [FrozenValue.allKinds, FrozenValue.kinds, FrozenValue.specType]; decide)).elim

/-- A double is not counted as an int32. -/
theorem Admits.double_of_not_int32 (h : v.Admits layout memory w) (he : v.Exact)
    (hw : Value.isNumber w = true) (hint : Value.isInt32 w = false) (hc : v.value = some c) :
    ∃ d, c = .double d ∧ v.ty.isSubsetOf (Value.numberKinds w) = true := by
  have hkinds := Value.int32_overlaps_numberKinds hint
  rcases h.numeric he hw hc with ⟨n, rfl⟩ | ⟨d, rfl⟩
  · have hty := SpecType.subset_trans (he _ hc) (SpecType.ofInt32_subset n)
    rw [SpecType.overlaps_mono (h.number hw) hty (SpecType.subset_refl _)] at hkinds
    cases hkinds
  · refine ⟨d, rfl, ?_⟩
    obtain ⟨d', hd, hsame⟩ := (h.constant _ hc).number d rfl
    simp only [Value.asNumber?, hint, hw, Bool.false_eq_true, if_false, if_true, Option.some.injEq]
      at hd
    subst hd
    have hnan : (Value.unboxDouble w).isNaN = d.isNaN := by
      rcases hsame with heq | ⟨hleft, hright⟩
      · rw [heq]
      · rw [hleft, hright]
    have hty := he _ hc
    rw [FrozenValue.allKinds] at hty
    rw [Value.numberKinds, hint, hnan]
    exact hty

/-- Narrowing a fact to kinds of numbers keeps it from misleading the test of a number's truth, if
the fact has a constant. Without one this would not be so: an integer of 52 bits that is boxed as a
double is of none of the kinds of `bytecodeNumber`. -/
theorem Admits.judged_filter (h : v.Admits layout memory w) (he : v.Exact)
    (hw : Value.isNumber w = true) (hc : v.value = some c)
    (hmask : SpecType.bytecodeRealNumber.isSubsetOf mask = true) (hover : v.ty.overlaps mask = true)
    :
    Value.Judged layout memory (v.filter mask).ty w := by
  have hfilter : (v.filter mask).ty = if constantMatches (v.ty &&& mask) mask c then v.ty &&&
    mask else .none := by
    simp only [filter, hc, Option.all_some]
  -- what is left overlaps the kinds of the number
  have hleft : (v.ty &&& mask).overlaps (Value.numberKinds w) = true := by
    cases hint : Value.isInt32 w with
    | true =>
      have hkinds : (Value.numberKinds w).isSubsetOf mask = true := by
        refine SpecType.subset_trans ?_ hmask
        rw [Value.numberKinds, if_pos hint, SpecType.ofInt32]
        split <;> decide
      obtain ⟨i, hi, hk⟩ := SpecType.overlaps_iff.1 (h.number hw)
      have hm := SpecType.isSubsetOf_iff.1 hkinds i hk
      exact SpecType.overlaps_iff.2 ⟨i, by rw [SpecType.getLsbD_and, hi, hm]; rfl, hk⟩
    | false =>
      obtain ⟨-, -, hty⟩ := h.double_of_not_int32 he hw hint hc
      obtain ⟨i, hi, hm⟩ := SpecType.overlaps_iff.1 hover
      exact SpecType.overlaps_iff.2
        ⟨i, by rw [SpecType.getLsbD_and, hi, hm]; rfl, SpecType.isSubsetOf_iff.1 hty i hi⟩
  rw [hfilter]
  split
  · exact Value.judged_of_overlaps hleft
  · -- only a NaN is ruled out, which is not true
    rename_i hout
    have hfalse : Value.truthy layout memory w = false := by
      rcases h.numeric he hw hc with ⟨n, rfl⟩ | ⟨d, rfl⟩
      · refine absurd (SpecType.overlaps_mono (a := .ofInt32 n) (b :=
          .int32) ?_ (SpecType.subset_refl _) ?_) hout
        · unfold SpecType.ofInt32
          split <;> decide
        · exact SpecType.subset_trans (by decide) hmask
      · obtain ⟨d', hd, hsame⟩ := (h.constant _ hc).number d rfl
        rw [Value.truthy_number hd, Double.truthy_congr hsame]
        cases hnan : d.isNaN with
        | true => simp [Double.truthy, hnan]
        | false =>
          refine absurd (SpecType.overlaps_mono (a := .ofDouble d) (b :=
            .doubleReal) ?_ (SpecType.subset_refl _) ?_) hout
          · rcases SpecType.ofDouble_eq_or hnan with heq | heq <;> rw [heq] <;> decide
          · exact SpecType.subset_trans (by decide) hmask
    refine ⟨fun _ => ?_, fun hno => absurd hno (by decide), fun hno => absurd hno (by decide)⟩
    rw [hfalse, eq_comm, beq_eq_false_iff_ne]
    rintro rfl
    exact absurd hw (by decide)

end AbstractValue

/-! ## Words whose truth can be known -/

namespace Value

variable {layout : ObjectLayout} {memory : Memory} {w : Word} {v : AbstractValue} {k : UseKind}
  {t : Bool}

/-- What is no number but is known to be true or not, as a condition. -/
inductive Plain (layout : ObjectLayout) (memory : Memory) (w : Word) : Prop
  | boolean (h : isBoolean w = true)
  | other (h : isOther w = true)
  | string (h : (kindOf layout memory w).isSubsetOf .string = true)
  | object (h : (kindOf layout memory w).isSubsetOf .object = true)
    (hmasq : Cell.masquerades layout memory w = false)

theorem plain_of_conditionTruth? (ht : v.conditionTruth? k = some t) (hw : v.Admits layout memory w)
    (hn : isNumber w = false) (hmasq : Cell.OnlyOthersMasquerade layout memory) :
    Plain layout memory w := by
  rcases AbstractValue.conditionTruth?_cases ht with ⟨c, hc, ht⟩ | ⟨hother, -⟩ | ⟨-, hobject, hno,
    -⟩
  · have hmeans := hw.constant c hc
    cases c with
    | empty => cases ht
    | undefined | null =>
      obtain rfl := hmeans.word rfl
      exact .other (by decide)
    | boolean b =>
      obtain rfl := hmeans.word rfl
      exact .boolean (by cases b <;> decide)
    | int32 n =>
      obtain ⟨d, hd, -⟩ := hmeans.number _ rfl
      rw [isNumber_of_asNumber? hd] at hn
      cases hn
    | double d =>
      obtain ⟨d', hd, -⟩ := hmeans.number _ rfl
      rw [isNumber_of_asNumber? hd] at hn
      cases hn
    | cell c =>
      cases hs : c.string with
      | none =>
        simp only [FrozenValue.truthy?, hs] at ht
        cases ht
      | some text => exact .string (hmeans.text c text rfl hs).1
  · exact .other (isOther_of_subset (hw.kind hother (by decide)))
  · have hkind := hw.kind hobject (by decide)
    have hcell := isCell_of_subset (SpecType.subset_trans hkind (by decide))
    exact .object hkind (hmasq.eq_false hcell (hw.other hn) hno)

theorem Plain.ne_empty (h : Plain layout memory w) : w ≠ empty := by
  cases h with
  | boolean h | other h =>
    rintro rfl
    cases h
  | string h | object h => exact ne_empty_of_subset (by decide) h

theorem Plain.isInvalid_eq_false (h : Plain layout memory w) : isInvalid w = false := by
  cases h with
  | boolean h => rcases isBoolean_iff.1 h with rfl | rfl <;> decide
  | other h => exact isInvalid_of_isOther h
  | string h => exact isInvalid_of_isCell (isCell_of_subset (SpecType.subset_trans h (by decide)))
  | object h => exact isInvalid_of_isCell (isCell_of_subset (SpecType.subset_trans h (by decide)))

/-- The tag of an object is that of an object type. -/
theorem hasObjectType_of_subset (h : (kindOf layout memory w).isSubsetOf .object = true) :
    overlooked.hasObjectType layout memory w = true := by
  have hcell := isCell_of_subset (SpecType.subset_trans h (by decide))
  rw [kindOf_cell hcell (ne_empty_of_subset (by decide) h), Cell.kind] at h
  rw [overlooked.hasObjectType]
  cases htype : CellType.ofTag? (Cell.tag layout memory w) with
  | none =>
    rw [htype] at h
    dsimp only at h
    exact absurd h (by decide)
  | some cellType =>
    rw [htype] at h
    cases cellType with
    | typedArray kind => cases kind <;> rfl
    | string =>
      dsimp only at h
      split at h <;> exact absurd h (by decide)
    | _ => first | rfl | (dsimp only at h; exact absurd h (by decide))

/-- The checks of a use see what such a word is. -/
theorem Plain.not_overlooked (h : Plain layout memory w)
    (hlayout : layout.firstObjectTag = CellType.firstObjectTag) (hk : k.isDoubleRep = false) :
    overlooked layout memory w k = false := by
  have hne := beq_eq_false_iff_ne.2 h.ne_empty
  have hinvalid := h.isInvalid_eq_false
  -- what tests of doubles, of objects and of unknown tags would miss
  suffices hrest : isDouble w = false ∧
    (isCell w = true → Cell.hasObjectTag layout memory w = true →
      overlooked.hasObjectType layout memory w = true) ∧
      (isCell w = true → (CellType.ofTag? (Cell.tag layout memory w)).isNone = false) by
    obtain ⟨hdouble, hobject, htag⟩ := hrest
    cases hcell : isCell w with
    | false => cases k <;> first | cases hk; done | simp [overlooked, hcell, hne, hinvalid, hdouble]
    | true =>
      have hisSome := htag hcell
      cases hheader : Cell.hasObjectTag layout memory w with
      | false =>
        cases k <;> first
          | cases hk; done
          | simp [overlooked, hcell, hne, hinvalid, hdouble, hheader, hisSome]
      | true =>
        have htype := hobject hcell hheader
        cases k <;> first
          | cases hk; done
          | simp [overlooked, hcell, hne, hinvalid, hdouble, hheader, hisSome, htype]
  cases h with
  | boolean h =>
    rcases isBoolean_iff.1 h with rfl | rfl <;>
      exact ⟨by
        decide, fun hcell => absurd hcell (by decide), fun hcell => absurd hcell (by decide)⟩
  | other h =>
    rcases isOther_iff.1 h with rfl | rfl <;>
      exact ⟨by
        decide, fun hcell => absurd hcell (by decide), fun hcell => absurd hcell (by decide)⟩
  | string h =>
    obtain ⟨hcell, -, htag⟩ := string_of_subset h
    refine ⟨by
      simp [isDouble, (tests_of_isCell hcell).2.1], fun _ hheader => ?_, fun _ => by rw [htag]; rfl⟩
    rw [Cell.hasObjectTag, hlayout, htag] at hheader
    exact absurd hheader (by decide)
  | object h =>
    have hcell := isCell_of_subset (SpecType.subset_trans h (by decide))
    have htype := hasObjectType_of_subset h
    refine ⟨by simp [isDouble, (tests_of_isCell hcell).2.1], fun _ _ => htype, fun _ => ?_⟩
    rw [overlooked.hasObjectType] at htype
    cases htag : CellType.ofTag? (Cell.tag layout memory w) with
    | none =>
      rw [htag] at htype
      cases htype
    | some cellType => rfl

/-- Such a word that is of the kinds of objects is true. -/
theorem Plain.truthy_object (h : Plain layout memory w)
    (hkind : (kindOf layout memory w).isSubsetOf .object = true) :
    truthy layout memory w = true := by
  cases h with
  | boolean h =>
    rw [kindOf_boolean h] at hkind
    cases hkind
  | other h =>
    rw [kindOf_other h] at hkind
    cases hkind
  | string h =>
    exact absurd (SpecType.overlaps_of_subset (kindOf_isEmpty layout memory w) hkind h) (by decide)
  | object h hmasq =>
    have hcell := isCell_of_subset (SpecType.subset_trans h (by decide))
    rw [Value.truthy_object hcell (SpecType.subset_trans h (by decide)), hmasq]
    rfl

/-- Such a word that is of the kinds of objects, `null` and `undefined` is as true as it is a cell.
-/
theorem Plain.truthy_objectOrOther (h : Plain layout memory w)
    (hkind : (kindOf layout memory w).isSubsetOf (.union .object .other) = true) :
    truthy layout memory w = isCell w := by
  cases h with
  | boolean h =>
    rw [kindOf_boolean h] at hkind
    cases hkind
  | other h =>
    rw [truthy_other h]
    rcases isOther_iff.1 h with rfl | rfl <;> decide
  | string h =>
    exact absurd (SpecType.overlaps_of_subset (kindOf_isEmpty layout memory w) hkind h) (by decide)
  | object h hmasq =>
    have hcell := isCell_of_subset (SpecType.subset_trans h (by decide))
    rw [Value.truthy_object hcell hkind, hmasq, hcell]
    rfl

/-- A number whose truth is known is known itself. -/
theorem exists_constant_of_isNumber (ht : v.conditionTruth? k = some t)
    (hw : v.Admits layout memory w) (hn : isNumber w = true) :
    ∃ c, v.value = some c := by
  have hno {mask : SpecType} (hty : v.ty.isSubsetOf mask = true)
    (hmask : mask.overlaps .fullNumber = false) : False := by
    rw [hw.isNumber_eq_false hty hmask] at hn
    cases hn
  rcases AbstractValue.conditionTruth?_cases ht with ⟨c, hc, -⟩ | ⟨hother, -⟩ | ⟨-, hobject, -⟩
  · exact ⟨c, hc⟩
  · exact (hno hother (by decide)).elim
  · exact (hno hobject (by decide)).elim

end Value

/-! ## Known int32 values -/

/-- A constant that is an int32 is that number. -/
theorem FrozenValue.asNumber?_of_asInt32? {c : FrozenValue} {a : Int32} (h : c.asInt32? = some a) :
    c.asNumber? = some (Double.ofInt a.toInt) := by
  cases c with
  | int32 n =>
    cases h
    rfl
  | double d =>
    rw [asInt32?] at h
    split at h
    · rename_i hd
      cases h
      rw [Bool.and_eq_true, Bool.not_eq_true'] at hd
      exact congrArg
        some (Double.eq_of_numEq hd.1 (Double.ofInt_isNegativeZero (Value.natAbs_lt_of_int32 _))
          hd.2).symm
    · cases h
  | _ => cases h

namespace AbstractValue

variable {layout : ObjectLayout} {memory : Memory} {v : AbstractValue} {w : Word} {a : Int32}

/-- A word that is an int32 is the one that the fact names. -/
theorem Admits.unboxInt32_eq (h : v.Admits layout memory w) (ha : v.asInt32? = some a)
    (hw : Value.isInt32 w = true) :
    Value.unboxInt32 w = a := by
  obtain ⟨c, hc, ha⟩ := Option.bind_eq_some_iff.1 ha
  obtain ⟨d, hd, hsame⟩ := (h.constant c hc).number _ (FrozenValue.asNumber?_of_asInt32? ha)
  rw [Value.asNumber?, if_pos hw] at hd
  cases hd
  rcases hsame with heq | ⟨hnan, -⟩
  · exact Int32.toInt_inj.1 (Double.ofInt_injective (Value.natAbs_lt_of_int32 _)
      (Value.natAbs_lt_of_int32 _) heq)
  · rw [Double.ofInt_isNaN (Value.natAbs_lt_of_int32 _)] at hnan
    cases hnan

/-- A fact that names an int32 has int32 as its only kind, or not at all. -/
theorem Exact.int32_settled (hexact : v.Exact) (ha : v.asInt32? = some a) :
    v.isType .int32 = true ∨ v.isNotType .int32 = true := by
  obtain ⟨c, hc, ha⟩ := Option.bind_eq_some_iff.1 ha
  have hty := hexact c hc
  cases c with
  | int32 n => exact .inl (SpecType.subset_trans hty (SpecType.ofInt32_subset n))
  | double d =>
    refine .inr ?_
    rw [isNotType, Bool.not_eq_true', ← Bool.not_eq_true]
    intro hover
    have hover := SpecType.overlaps_mono hover hty (SpecType.subset_refl _)
    rw [FrozenValue.allKinds] at hover
    split at hover <;> exact absurd hover (by decide)
  | _ => cases ha

end AbstractValue

end SpecJit
