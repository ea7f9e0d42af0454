import SpecJit.AbstractValue
import SpecJit.Proofs.Lowering.Boxing
import SpecJit.UseKind

/-!
# The kind of a word, and what checks see of it

`Value.kindOf` is the kind of the value that a word stands for in a given heap; cells are told apart
by their tags. `Value.passes` is what the tests of a use kind say about a word, and
`UseKind.typeFilter` is what the analysis takes them to prove. `Value.overlooked` lists the words on
which the two disagree (`overlooked_iff`): the tests let them through and they are of another kind.
-/

namespace SpecJit

open Lir

/-! ## Sets of kinds -/

namespace SpecType

variable {a b c d : SpecType}

theorem isSubsetOf_iff :
    a.isSubsetOf b = true ↔ ∀ i, a.bits.toBitVec.getLsbD i = true → b.bits.toBitVec.getLsbD
      i = true := by
  rw [isSubsetOf, beq_iff_eq, ← UInt64.toBitVec_inj]
  constructor
  · intro h i hi
    have hbit := congrArg (fun x => x.getLsbD i) h
    have hlt := BitVec.lt_of_getLsbD hi
    simpa [hi, hlt] using hbit
  · intro h
    apply BitVec.eq_of_getLsbD_eq
    intro i hi
    cases ha : a.bits.toBitVec.getLsbD i with
    | false => simp [ha]
    | true => simp [ha, h i ha]

theorem subset_trans (h₁ : a.isSubsetOf b = true) (h₂ : b.isSubsetOf c = true) :
    a.isSubsetOf c = true :=
  isSubsetOf_iff.2 fun i hi => isSubsetOf_iff.1 h₂ i (isSubsetOf_iff.1 h₁ i hi)

theorem subset_and (h₁ : a.isSubsetOf b = true) (h₂ : a.isSubsetOf c = true) :
    a.isSubsetOf (b &&& c) = true := by
  rw [isSubsetOf_iff] at h₁ h₂ ⊢
  intro i hi
  change (b.bits &&& c.bits).toBitVec.getLsbD i = true
  simp [h₁ i hi, h₂ i hi]

theorem and_subset_left : (a &&& b).isSubsetOf a = true := by
  rw [isSubsetOf_iff]
  intro i hi
  change (a.bits &&& b.bits).toBitVec.getLsbD i = true at hi
  simp_all

theorem and_subset_right : (a &&& b).isSubsetOf b = true := by
  rw [isSubsetOf_iff]
  intro i hi
  change (a.bits &&& b.bits).toBitVec.getLsbD i = true at hi
  simp_all

/-- Two sets with a common part that is inhabited. -/
theorem overlaps_of_subset (hne : a.isEmpty = false) (h₁ : a.isSubsetOf b = true)
    (h₂ : a.isSubsetOf c = true) :
    b.overlaps c = true := by
  rw [overlaps, bne_iff_ne]
  intro h
  have hsub := subset_and h₁ h₂
  have hz : (b &&& c) = ⟨0⟩ := congrArg SpecType.mk h
  rw [hz] at hsub
  simp_all [isSubsetOf, isEmpty]

theorem subset_refl (a : SpecType) : a.isSubsetOf a = true := isSubsetOf_iff.2 fun _ h => h

theorem getLsbD_and {i : Nat} :
    (a &&& b).bits.toBitVec.getLsbD i = (a.bits.toBitVec.getLsbD i && b.bits.toBitVec.getLsbD
      i) := by
  change (a.bits &&& b.bits).toBitVec.getLsbD i = _
  rw [UInt64.toBitVec_and, BitVec.getLsbD_and]

theorem overlaps_iff :
    a.overlaps b = true ↔ ∃ i, a.bits.toBitVec.getLsbD i = true ∧ b.bits.toBitVec.getLsbD
      i = true := by
  rw [overlaps, bne_iff_ne, Ne, ← UInt64.toBitVec_inj]
  constructor
  · intro h
    by_cases hex : ∃ i, a.bits.toBitVec.getLsbD i = true ∧ b.bits.toBitVec.getLsbD i = true
    · exact hex
    · rw [not_exists] at hex
      exact absurd (BitVec.eq_of_getLsbD_eq fun i _ => by simpa using hex i) h
  · rintro ⟨i, ha, hb⟩ h
    have hbit := congrArg (fun x => x.getLsbD i) h
    simp [ha, hb] at hbit

/-- Larger sets overlap, too. -/
theorem overlaps_mono (h : a.overlaps b = true) (hac : a.isSubsetOf c = true)
    (hbd : b.isSubsetOf d = true) : c.overlaps d = true := by
  obtain ⟨i, ha, hb⟩ := overlaps_iff.1 h
  exact overlaps_iff.2 ⟨i, isSubsetOf_iff.1 hac i ha, isSubsetOf_iff.1 hbd i hb⟩

/-- A set is not included in one of other kinds. -/
theorem not_subset_of_overlaps (h : a.overlaps b = true) (hc : c.overlaps b = false) :
    a.isSubsetOf c = false := by
  rw [← Bool.not_eq_true]
  intro hsub
  rw [overlaps_mono h hsub (subset_refl b)] at hc
  cases hc

theorem not_isEmpty_of_subset (h : a.isSubsetOf b = true) (ha : a.isEmpty = false) :
    b.isEmpty = false := by
  rw [← Bool.not_eq_true] at ha ⊢
  intro hb
  refine ha ?_
  simp only [isEmpty, beq_iff_eq] at hb ⊢
  simpa [isSubsetOf, hb] using h

theorem ofInt32_subset (n : Int32) : (ofInt32 n).isSubsetOf int32 = true := by
  unfold ofInt32
  split <;> decide

end SpecType

/-! ## The kind of a word -/

/-- The kind of a cell, by its tag; a tag of no type tells nothing. -/
def Cell.kind (layout : ObjectLayout) (memory : Memory) (cell : Word) : SpecType :=
  match CellType.ofTag? (tag layout memory cell) with
  | some .string => if isIdentString layout memory cell then .stringIdent else .stringVar
  | some cellType => .ofCellType cellType
  | none => .cell

namespace Value

/-- The kind of the value that a word stands for. -/
def kindOf (layout : ObjectLayout) (memory : Memory) (w : Word) : SpecType :=
  match decode w with
  | .cell _ => Cell.kind layout memory w
  | _ => specType w

/-- The word stands for no value. -/
def isInvalid (w : Word) : Bool := !(isNumber w || isCell w || isMisc w)

/-! ## What the tests say -/

/-- The word gets through the tests of a use kind. -/
def passes (layout : ObjectLayout) (memory : Memory) (w : Word) : UseKind → Bool
  | .int32 => isInt32 w
  | .number | .machineInt => isNumber w
  | .realNumber => isInt32 w || isNumber w && !(unboxDouble w).isNaN
  | .boolean => isBoolean w
  | .cell => isCell w
  | .object => isCell w && Cell.hasObjectTag layout memory w
  | .function => isCell w && hasTag .function
  | .finalObject => isCell w && hasTag .finalObject
  | .string => isCell w && hasTag .string
  | .stringObject => isCell w && hasTag .stringObject
  | .stringIdent => isCell w && hasTag .string && Cell.isIdentString layout memory w
  | .stringOrStringObject => isCell w && (hasTag .string || hasTag .stringObject)
  | .notStringVar => !(isCell w && hasTag .string && !Cell.isIdentString layout memory w)
  | .objectOrOther => if isCell w then Cell.hasObjectTag layout memory w else isOther w
  | .notCell => !isCell w
  | .other => isOther w
  | .misc => isMisc w
  | .untyped | .knownInt32 | .knownBoolean | .knownCell | .knownString | .int52Rep | .doubleRep
  | .doubleRepReal | .doubleRepMachineInt => true
where
  hasTag (cellType : CellType) : Bool := Cell.tag layout memory w == cellType.tag

/-- The word can get through the checks of a use kind although it is not of the kinds they stand
for. A test for integers takes every number, a test for cells takes the empty word, a test for
objects takes tags that no object has, and tests against some cells take words that stand for
nothing. The uses that read a double test nothing of a boxed word. -/
def overlooked (layout : ObjectLayout) (memory : Memory) (w : Word) : UseKind → Bool
  | .machineInt => isDouble w
  | .object => w == empty || isCell w && Cell.hasObjectTag layout memory w && !hasObjectType
  | .objectOrOther =>
    isCell w && Cell.hasObjectTag layout memory w && (w == empty || !hasObjectType)
  | .notCell => isInvalid w
  | .notStringVar =>
    isInvalid w || isCell w && w != empty && (CellType.ofTag? (Cell.tag layout memory w)).isNone
  | .doubleRepReal => !(kindOf layout memory w).isSubsetOf .doubleReal
  | .doubleRepMachineInt => !(kindOf layout memory w).isSubsetOf .int52AsDouble
  | k => k.isCell && w == empty
where
  hasObjectType : Bool := (CellType.ofTag? (Cell.tag layout memory w)).any CellType.isObject

variable {layout : ObjectLayout} {memory : Memory} {w : Word}

/-- No number is a cell or one of the small constants. -/
theorem tests_of_isNumber (h : isNumber w = true) :
    isCell w = false ∧ isBoolean w = false ∧ isOther w = false := by
  refine ⟨?_, ?_, ?_⟩ <;> rw [← Bool.not_eq_true] <;> intro h'
  · rw [isNumber_eq_false_of_isCell h'] at h
    cases h
  · rcases isBoolean_iff.1 h' with rfl | rfl <;> exact absurd h (by decide)
  · rcases isOther_iff.1 h' with rfl | rfl <;> exact absurd h (by decide)

/-- No cell is a number or one of the small constants. -/
theorem tests_of_isCell (h : isCell w = true) :
    isInt32 w = false ∧ isNumber w = false ∧ isBoolean w = false ∧ isOther w = false := by
  have hnum := isNumber_eq_false_of_isCell h
  refine ⟨?_, hnum, ?_, ?_⟩ <;> rw [← Bool.not_eq_true] <;> intro h'
  · rw [isNumber_of_isInt32 h'] at hnum
    cases hnum
  · rcases isBoolean_iff.1 h' with rfl | rfl <;> exact absurd h (by decide)
  · rcases isOther_iff.1 h' with rfl | rfl <;> exact absurd h (by decide)

theorem kindOf_int32 (h : isInt32 w = true) : kindOf layout memory w = .ofInt32 (unboxInt32 w) := by
  simp [kindOf, specType, decode, h]

theorem kindOf_double (h : isDouble w = true) :
    kindOf layout memory w = if (unboxDouble w).isNaN then .doublePureNaN
      else if (doubleAsInt52? (unboxDouble w)).isSome then .int52AsDouble else .nonIntAsDouble := by
  simp only [isDouble, Bool.and_eq_true, Bool.not_eq_true'] at h
  simp [kindOf, specType, decode, h.1, h.2]

theorem kindOf_empty : kindOf layout memory empty = .empty := rfl

theorem kindOf_cell (h : isCell w = true) (hne : w ≠ empty) :
    kindOf layout memory w = Cell.kind layout memory w := by
  obtain ⟨hi, hn, -, -⟩ := tests_of_isCell h
  simp [kindOf, decode, h, hi, hn, hne]

theorem kindOf_boolean (h : isBoolean w = true) : kindOf layout memory w = .boolean := by
  rcases isBoolean_iff.1 h with rfl | rfl <;> rfl

theorem kindOf_other (h : isOther w = true) : kindOf layout memory w = .other := by
  rcases isOther_iff.1 h with rfl | rfl <;> rfl

theorem kindOf_invalid (h : isInvalid w = true) : kindOf layout memory w = .heapTop := by
  simp only [isInvalid, Bool.not_eq_true', Bool.or_eq_false_iff, isMisc] at h
  obtain ⟨⟨hn, hc⟩, hb, ho⟩ := h
  have hi : isInt32 w = false := by
    rw [← Bool.not_eq_true]
    intro h'
    rw [isNumber_of_isInt32 h'] at hn
    cases hn
  have hne : w ≠ empty := by rintro rfl; exact absurd hc (by decide)
  have hother : ¬ (w = null ∨ w = undefined) := by rw [← isOther_iff, ho]; exact Bool.false_ne_true
  simp only [not_or] at hother
  simp [kindOf, specType, decode, hi, hn, hc, hb, hne, hother.1, hother.2]

/-- Every word is of some kind. -/
theorem kindOf_isEmpty (layout : ObjectLayout) (memory : Memory) (w : Word) :
    (kindOf layout memory w).isEmpty = false := by
  unfold kindOf
  split
  · unfold Cell.kind
    split
    · split <;> decide
    · rename_i cellType _ _
      cases cellType with
      | typedArray kind => cases kind <;> decide
      | _ => decide
    · decide
  · unfold specType
    split <;> first
      | decide
      | (unfold SpecType.ofInt32; split <;> decide)
      | (split <;> first | decide | (split <;> decide))

/-! ## Where tests and kinds disagree -/

section Overlooked

variable {k : UseKind}

/-- The use kinds that check a boxed word. -/
def checksBoxed (k : UseKind) : Bool := !k.isProven && !k.isDoubleRep

/-- Words of the kinds that a use asks for get through its tests, the empty word apart. Of the
others the overlooked ones can, and only these. -/
structure Settled (layout : ObjectLayout) (memory : Memory) (w : Word) (k : UseKind) : Prop where
  taken : w ≠ empty → (k = .object ∨ k = .objectOrOther →
    layout.firstObjectTag ≤ CellType.firstObjectTag) →
    (kindOf layout memory w).isSubsetOf k.typeFilter = true → passes layout memory w k = true
  differs : overlooked layout memory w k = true → (kindOf layout memory w).isSubsetOf
    k.typeFilter = false
  listed : passes layout memory w k = true → (kindOf layout memory w).isSubsetOf
    k.typeFilter = false →
    overlooked layout memory w k = true

theorem settled_of {kind : SpecType} (h : kindOf layout memory w = kind)
    (hs : (w ≠ empty → (k = .object ∨ k = .objectOrOther →
      layout.firstObjectTag ≤ CellType.firstObjectTag) →
        kind.isSubsetOf k.typeFilter = true → passes layout memory w k = true) ∧
      (overlooked layout memory w k = true → kind.isSubsetOf k.typeFilter = false) ∧
      (passes layout memory w k = true → kind.isSubsetOf k.typeFilter = false →
        overlooked layout memory w k = true)) :
    Settled layout memory w k := by
  subst h
  exact ⟨hs.1, hs.2.1, hs.2.2⟩

theorem settled_number (h : isNumber w = true) (hk : checksBoxed k = true) :
    Settled layout memory w k := by
  obtain ⟨hc, hb, ho⟩ := tests_of_isNumber h
  have hne : (w == empty) = false := by
    rw [← Bool.not_eq_true, beq_iff_eq]
    rintro rfl
    exact absurd h (by decide)
  have hinv : isInvalid w = false := by simp [isInvalid, h]
  cases hi : isInt32 w with
  | true =>
    have hdouble : isDouble w = false := by simp [isDouble, hi]
    refine settled_of (kindOf_int32 hi) ?_
    rw [SpecType.ofInt32]
    split <;> cases k <;> first
      | exact absurd hk (by decide)
      | simp +decide [overlooked, passes, isMisc, hi, h, hc, hb, ho, hne, hinv, hdouble]
  | false =>
    have hdouble : isDouble w = true := by simp [isDouble, h, hi]
    refine settled_of (kindOf_double hdouble) ?_
    cases hnan : (unboxDouble w).isNaN with
    | true =>
      cases k <;> first
        | exact absurd hk (by decide)
        | simp +decide [overlooked, passes, isMisc, hi, h, hc, hb, ho, hne, hinv, hdouble, hnan]
    | false =>
      simp only [Bool.false_eq_true, ↓reduceIte]
      split <;> cases k <;> first
        | exact absurd hk (by decide)
        | simp +decide [overlooked, passes, isMisc, hi, h, hc, hb, ho, hne, hinv, hdouble, hnan]

/-- A word that is neither a number nor a cell. -/
theorem settled_rest (hn : isNumber w = false) (hc : isCell w = false) (hk : checksBoxed k = true) :
    Settled layout memory w k := by
  have hi : isInt32 w = false := by
    rw [← Bool.not_eq_true]
    intro hi
    rw [isNumber_of_isInt32 hi] at hn
    cases hn
  have hdouble : isDouble w = false := by simp [isDouble, hn]
  have hne : (w == empty) = false := by
    rw [← Bool.not_eq_true, beq_iff_eq]
    rintro rfl
    exact absurd hc (by decide)
  cases hb : isBoolean w with
  | true =>
    have ho : isOther w = false := by rcases isBoolean_iff.1 hb with rfl | rfl <;> rfl
    have hinv : isInvalid w = false := by simp [isInvalid, isMisc, hb]
    refine settled_of (kindOf_boolean hb) ?_
    cases k <;> first
      | exact absurd hk (by decide)
      | simp +decide [overlooked, passes, isMisc, hi, hn, hc, hb, ho, hne, hinv, hdouble]
  | false =>
    cases ho : isOther w with
    | true =>
      have hinv : isInvalid w = false := by simp [isInvalid, isMisc, ho]
      refine settled_of (kindOf_other ho) ?_
      cases k <;> first
        | exact absurd hk (by decide)
        | simp +decide [overlooked, passes, isMisc, hi, hn, hc, hb, ho, hne, hinv, hdouble]
    | false =>
      have hinv : isInvalid w = true := by simp [isInvalid, isMisc, hn, hc, hb, ho]
      refine settled_of (kindOf_invalid hinv) ?_
      cases k <;> first
        | exact absurd hk (by decide)
        | simp +decide [overlooked, passes, isMisc, hi, hn, hc, hb, ho, hne, hinv, hdouble]

theorem settled_empty (hk : checksBoxed k = true) : Settled layout memory empty k := by
  have hc : isCell empty = true := by decide
  obtain ⟨hi, hn, hb, ho⟩ := tests_of_isCell hc
  have hinv : isInvalid empty = false := by decide
  have hsub : SpecType.empty.isSubsetOf k.typeFilter = decide (k = .notStringVar ∨
    k = .notCell) := by
    cases k <;> first | exact absurd hk (by decide) | rfl
  refine settled_of kindOf_empty ?_
  cases k <;> first
    | exact absurd hk (by decide)
    | simp [overlooked, passes, UseKind.isCell, isMisc, isDouble, hi, hn, hc, hb, ho, hinv, hsub]

/-! ### Cells -/

theorem ofTag?_tag (cellType : CellType) : CellType.ofTag? cellType.tag = some cellType := by
  cases cellType with
  | typedArray kind => cases kind <;> rfl
  | _ => rfl

theorem ofTag?_eq_some {n : Nat} {cellType : CellType} (h : CellType.ofTag? n = some cellType) :
    n = cellType.tag := by
  have := List.find?_some h
  rw [beq_iff_eq] at this
  exact this.symm

/-- Different types have different tags. -/
theorem tag_beq (cellType cellType' : CellType) :
    (cellType.tag == cellType'.tag) = (cellType == cellType') := by
  rw [Bool.eq_iff_iff, beq_iff_eq, beq_iff_eq]
  refine ⟨fun h => ?_, congrArg _⟩
  have := congrArg CellType.ofTag? h
  simpa [ofTag?_tag] using this

theorem beq_tag_of_none {n : Nat} (h : CellType.ofTag? n = none) (cellType : CellType) :
    (n == cellType.tag) = false := by
  rw [beq_eq_false_iff_ne]
  rintro rfl
  rw [ofTag?_tag] at h
  cases h

theorem hasObjectTag_of_isObject {cellType : CellType}
    (hl : layout.firstObjectTag ≤ CellType.firstObjectTag)
    (htag : Cell.tag layout memory w = cellType.tag) (ho : cellType.isObject = true) :
    Cell.hasObjectTag layout memory w = true := by
  have hlt := cellType.tag_lt
  have hle : CellType.firstObjectTag ≤ cellType.tag := by simpa [CellType.isObject] using ho
  rw [Cell.hasObjectTag, decide_eq_true_iff, htag, UInt32.le_iff_toNat_le, UInt32.toNat_ofNat',
    UInt32.toNat_ofNat', Nat.mod_eq_of_lt (by omega), Nat.mod_eq_of_lt (by omega)]
  omega

/-- The use kinds that a cell of some type is good for; strings are told apart further. -/
theorem ofCellType_subset {cellType : CellType} (hs : cellType ≠ .string)
    (hk : checksBoxed k = true) :
    (SpecType.ofCellType cellType).isSubsetOf k.typeFilter = match k with
      | .cell | .notStringVar => true
      | .object | .objectOrOther => cellType.isObject
      | .function => cellType == .function
      | .finalObject => cellType == .finalObject
      | .stringObject | .stringOrStringObject => cellType == .stringObject
      | _ => false := by
  cases cellType with
  | string => exact absurd rfl hs
  | typedArray kind => cases kind <;> cases k <;> first | rfl | exact absurd hk (by decide)
  | _ => cases k <;> first | rfl | exact absurd hk (by decide)

theorem settled_cell (h : isCell w = true) (hne : w ≠ empty) (hk : checksBoxed k = true) :
    Settled layout memory w k := by
  obtain ⟨hi, hn, hb, ho⟩ := tests_of_isCell h
  have hinv : isInvalid w = false := by simp [isInvalid, h]
  have hdouble : isDouble w = false := by simp [isDouble, hn]
  have hne' : (w == empty) = false := by simpa using hne
  refine settled_of (kindOf_cell h hne) ?_
  rw [Cell.kind]
  cases htag : CellType.ofTag? (Cell.tag layout memory w) with
  | none =>
    have hno := beq_tag_of_none htag
    have hsub : SpecType.cell.isSubsetOf k.typeFilter = decide (k = .cell) := by
      cases k <;> first | exact absurd hk (by decide) | rfl
    cases k <;> first
      | exact absurd hk (by decide)
      | simp [overlooked, overlooked.hasObjectType, passes, passes.hasTag, UseKind.isCell, isMisc,
        bne, hi, hn, h, hb, ho, hne', hinv, hdouble, htag, hno, hsub]
  | some cellType =>
    have heq := ofTag?_eq_some htag
    by_cases hs : cellType = .string
    · subst hs
      have hobj : CellType.isObject .string = false := by decide
      simp only
      cases hident : Cell.isIdentString layout memory w with
      | true =>
        have hsub : SpecType.stringIdent.isSubsetOf k.typeFilter = decide (k = .cell ∨ k = .string ∨
          k = .stringIdent ∨
            k = .stringOrStringObject ∨ k = .notStringVar) := by
          cases k <;> first | exact absurd hk (by decide) | rfl
        cases k <;> first
          | exact absurd hk (by decide)
          | simp [overlooked, overlooked.hasObjectType, passes, passes.hasTag, UseKind.isCell,
            isMisc, bne, hi, hn, h, hb, ho, hne', hinv, hdouble, heq, ofTag?_tag, tag_beq, hobj,
            hident, hsub]
      | false =>
        have hsub : SpecType.stringVar.isSubsetOf k.typeFilter = decide (k = .cell ∨ k = .string ∨
            k = .stringOrStringObject) := by
          cases k <;> first | exact absurd hk (by decide) | rfl
        cases k <;> first
          | exact absurd hk (by decide)
          | simp [overlooked, overlooked.hasObjectType, passes, passes.hasTag, UseKind.isCell,
            isMisc, bne, hi, hn, h, hb, ho, hne', hinv, hdouble, heq, ofTag?_tag, tag_beq, hobj,
            hident, hsub]
    · have hkind : (match some cellType with
          | some .string =>
            if Cell.isIdentString layout memory w then SpecType.stringIdent else SpecType.stringVar
          | some cellType => .ofCellType cellType
          | none => .cell) = SpecType.ofCellType cellType := by
        cases cellType <;> first | rfl | exact absurd rfl hs
      have hs' : (cellType == CellType.string) = false := by simpa using hs
      have htagged : layout.firstObjectTag ≤ CellType.firstObjectTag → cellType.isObject = true →
          Cell.hasObjectTag layout memory w = true :=
            fun hl ho => hasObjectTag_of_isObject hl heq ho
      rw [hkind, ofCellType_subset hs hk]
      cases k <;> first
        | exact absurd hk (by decide)
        | simp +contextual [overlooked, overlooked.hasObjectType, passes, passes.hasTag,
          UseKind.isCell, isMisc, bne,
            hi, hn, h, hb, ho, hne', hinv, hdouble, heq, ofTag?_tag, tag_beq, hs', htagged]

theorem settled (layout : ObjectLayout) (memory : Memory) (w : Word) (hk : k.isProven = false) :
    Settled layout memory w k := by
  by_cases hd : k.isDoubleRep = true
  · cases k <;> first
      | exact absurd hd (by decide)
      | exact absurd hk (by decide)
      | exact ⟨fun _ _ _ => rfl, fun h => by simpa [overlooked, UseKind.typeFilter] using h,
          fun _ h => by simpa [overlooked, UseKind.typeFilter] using h⟩
  have hk : checksBoxed k = true := by simp [checksBoxed, hk, hd]
  rcases Bool.eq_false_or_eq_true (isNumber w) with hn | hn
  · exact settled_number hn hk
  rcases Bool.eq_false_or_eq_true (isCell w) with hc | hc
  · by_cases hne : w = empty
    · subst hne
      exact settled_empty hk
    · exact settled_cell hc hne hk
  · exact settled_rest hn hc hk

/-- A word that gets through and is not overlooked is of the kinds that the use asks for. -/
theorem subset_of_passes (hk : k.isProven = false) (hp : passes layout memory w k = true)
    (ho : overlooked layout memory w k = false) :
    (kindOf layout memory w).isSubsetOf k.typeFilter = true := by
  rw [← Bool.not_eq_false]
  intro hs
  rw [(settled layout memory w hk).listed hp hs] at ho
  cases ho

theorem isNumber_of_subset (h : (kindOf layout memory w).isSubsetOf .bytecodeNumber = true) :
    isNumber w = true := by
  by_cases hne : w = empty
  · subst hne
    rw [kindOf_empty] at h
    exact absurd h (by decide)
  · exact (settled layout memory w (k := .number) rfl).taken hne (by simp) h

theorem isCell_of_subset (h : (kindOf layout memory w).isSubsetOf .cell = true) :
    isCell w = true := by
  by_cases hne : w = empty
  · subst hne
    rfl
  · exact (settled layout memory w (k := .cell) rfl).taken hne (by simp) h

end Overlooked

end Value

/-!
## Values as conditions

`Value.truthy` says which values are true as conditions. Numbers are, unless they are zero or NaN;
strings are, unless they have no characters; every other cell is, unless its header says that it
masquerades as `undefined`.
-/

/-- The double is neither zero nor NaN. -/
def Double.truthy (d : Double) : Bool := !(d.numEq (.zero false) || d.isNaN)

namespace Cell

variable (layout : ObjectLayout) (memory : Memory) (cell : Word)

/-- The header says that the object claims to be `undefined`. -/
def masquerades : Bool :=
  memory.byte (Machine.address cell (Int32.ofInt (layout.fieldOffset .typeInfoFlags))) &&&
    TypeInfoFlags.masqueradesAsUndefined != 0

/-- A string cell is a rope or has characters. -/
def hasText : Bool :=
  let impl := memory.read (Machine.address cell (Int32.ofInt (layout.fieldOffset .stringImpl))) 8
  impl == 0 ||
    (memory.read (Machine.address impl (Int32.ofInt (layout.fieldOffset .stringImplLength)))
      4).toUInt32 != 0

end Cell

namespace Value

/-- The value is true as a condition. -/
def Decoded.truthy (layout : ObjectLayout) (memory : Memory) : Decoded → Bool
  | .int32 n => n != 0
  | .double d => d.truthy
  | .boolean b => b
  | .cell w =>
    if Cell.tag layout memory w = CellType.string.tag then Cell.hasText layout memory w
      else !Cell.masquerades layout memory w
  | .empty | .null | .undefined | .invalid _ => false

/-- The value of the word is true as a condition. -/
def truthy (layout : ObjectLayout) (memory : Memory) (w : Word) : Bool :=
  (decode w).truthy layout memory

end Value

namespace Lir

/-- The runtime says which values are true as conditions, without touching memory. It is not asked
about words that stand for no value. -/
def Machine.TellsTruth {σ : Type} (m : Machine σ) (layout : ObjectLayout) (memory : Memory) :
    Prop :=
  ∀ w, w ≠ Value.empty → Value.isInvalid w = false →
    ∀ t, ∃ t', m.runtime.callHelper .toBoolean [w] t
      memory = (ofBool (Value.truthy layout memory w), t', memory)

end Lir

namespace Value

variable {layout : ObjectLayout} {memory : Memory} {w : Word}

theorem truthy_int32 (h : isInt32 w = true) : truthy layout memory w = (unboxInt32 w != 0) := by
  simp [truthy, decode, h, Decoded.truthy]

theorem truthy_boolean (h : isBoolean w = true) : truthy layout memory w = (w == trueWord) := by
  rcases isBoolean_iff.1 h with rfl | rfl <;> rfl

theorem truthy_other (h : isOther w = true) : truthy layout memory w = false := by
  rcases isOther_iff.1 h with rfl | rfl <;> rfl

theorem truthy_cell (h : isCell w = true) (hne : w ≠ empty) : truthy layout memory w =
    if Cell.tag layout memory w = CellType.string.tag then Cell.hasText layout memory w
      else !Cell.masquerades layout memory w := by
  obtain ⟨hi, hn, -, -⟩ := tests_of_isCell h
  simp [truthy, decode, h, hi, hn, hne, Decoded.truthy]

theorem isInvalid_of_isCell (h : isCell w = true) : isInvalid w = false := by simp [isInvalid, h]

theorem isInvalid_of_isOther (h : isOther w = true) : isInvalid w = false := by
  simp [isInvalid, isMisc, h]

/-! ### What a kind says about the word -/

theorem ne_empty_of_subset {mask : SpecType} (hmask : SpecType.empty.isSubsetOf mask = false)
    (h : (kindOf layout memory w).isSubsetOf mask = true) : w ≠ empty := by
  rintro rfl
  rw [kindOf_empty, hmask] at h
  cases h

theorem isBoolean_of_subset (h : (kindOf layout memory w).isSubsetOf .boolean = true) :
    isBoolean w = true :=
  (settled layout memory w (k := .boolean) rfl).taken (ne_empty_of_subset (by decide) h) (by simp) h

theorem isInt32_of_subset (h : (kindOf layout memory w).isSubsetOf .int32 = true) :
    isInt32 w = true :=
  (settled layout memory w (k := .int32) rfl).taken (ne_empty_of_subset (by decide) h) (by simp) h

theorem isOther_of_subset (h : (kindOf layout memory w).isSubsetOf .other = true) :
    isOther w = true :=
  (settled layout memory w (k := .other) rfl).taken (ne_empty_of_subset (by decide) h) (by simp) h

/-- Of a string the kind is one of strings. -/
theorem kindOf_string (h : isCell w = true) (hne : w ≠ empty)
    (htag : Cell.tag layout memory w = CellType.string.tag) :
    kindOf layout memory w = if Cell.isIdentString layout memory w then .stringIdent
      else .stringVar := by
  rw [kindOf_cell h hne, Cell.kind, htag, ofTag?_tag]

/-- An object is true unless it masquerades. -/
theorem truthy_object (h : isCell w = true)
    (hkind : (kindOf layout memory w).isSubsetOf (.union .object .other) = true) :
    truthy layout memory w = !Cell.masquerades layout memory w := by
  have hne := ne_empty_of_subset (by decide) hkind
  rw [truthy_cell h hne, if_neg]
  intro htag
  rw [kindOf_string h hne htag] at hkind
  split at hkind <;> exact absurd hkind (by decide)

/-- The kinds of a word say how to find out whether its value is true. -/
structure Judged (layout : ObjectLayout) (memory : Memory) (ty : SpecType) (w : Word) : Prop where
  boolean : ty.isSubsetOf .boolean = true → truthy layout memory w = (w == trueWord)
  int32 : ty.isSubsetOf .boolean = false → ty.isSubsetOf .int32 = true →
    truthy layout memory w = (unboxInt32 w != 0)
  other : ty.isSubsetOf .boolean = false → ty.isSubsetOf .other = true →
    truthy layout memory w = false

theorem judged_of_subset {ty : SpecType} (h : (kindOf layout memory w).isSubsetOf ty = true) :
    Judged layout memory ty w where
  boolean hty := truthy_boolean (isBoolean_of_subset (SpecType.subset_trans h hty))
  int32 _ hty := truthy_int32 (isInt32_of_subset (SpecType.subset_trans h hty))
  other _ hty := truthy_other (isOther_of_subset (SpecType.subset_trans h hty))

end Value

end SpecJit
