import SpecJit.Proofs.Lir.Integers
import SpecJit.Proofs.Lir.Yields
import SpecJit.Proofs.Lowering.Control
import SpecJit.Proofs.Number

/-!
# What the code for boxed values computes

Each test that the lowering emits computes what its namesake in `Value` computes, or, for cells,
what the header of the cell says (`Cell.tag`, `Cell.isIdentString`).

Every test, boxing and unboxing of a word is there twice: as a function on words, and as code that
the lowering emits. The code can be emitted behind any register, and computes the function on every
word that the function is for.
-/

namespace SpecJit

open Lir

/-! ## Cells in memory -/

namespace Cell

/-- The tag in the header of a cell. -/
def tag (layout : ObjectLayout) (memory : Memory) (cell : Word) : Nat :=
  (memory.byte (Machine.address cell (Int32.ofInt layout.tagOffset))).toNat

/-- The tag counts as one of an object. -/
def hasObjectTag (layout : ObjectLayout) (memory : Memory) (cell : Word) : Bool :=
  UInt32.ofNat layout.firstObjectTag ≤ UInt32.ofNat (tag layout memory cell)

/-- A string cell is interned: it has characters, and these are marked. -/
def isIdentString (layout : ObjectLayout) (memory : Memory) (cell : Word) : Bool :=
  let impl := memory.read (Machine.address cell (Int32.ofInt (layout.fieldOffset .stringImpl))) 8
  let flags :=
    memory.read (Machine.address impl (Int32.ofInt (layout.fieldOffset .stringImplFlags))) 4
  impl != 0 && flags.toUInt32 &&& 2 != 0

theorem tag_lt (layout : ObjectLayout) (memory : Memory) (cell : Word) :
    tag layout memory cell < 256 :=
  UInt8.toNat_lt _

end Cell

theorem CellType.tag_lt (cellType : CellType) : cellType.tag < 256 := by
  cases cellType with
  | typedArray kind => cases kind <;> decide
  | _ => decide

/-! ## Machine arithmetic on words -/

namespace Lir

@[simp] theorem Ty.normalize_i64 (w : Word) : Ty.normalize .i64 w = w := rfl

@[simp] theorem Ty.normalize_f64 (w : Word) : Ty.normalize .f64 w = w := rfl

@[simp] theorem BinaryOp.and_eval (a b : Word) : BinaryOp.and.eval .i64 a b = a &&& b := rfl

@[simp] theorem BinaryOp.or_eval (a b : Word) : BinaryOp.or.eval .i64 a b = a ||| b := rfl

@[simp] theorem BinaryOp.xor_eval (a b : Word) : BinaryOp.xor.eval .i64 a b = a ^^^ b := rfl

@[simp] theorem BinaryOp.add_eval (a b : Word) : BinaryOp.add.eval .i64 a b = a + b := rfl

theorem toNat_beq (a b : Word) : (a.toNat == b.toNat) = (a == b) := by
  rw [Bool.eq_iff_iff, beq_iff_eq, beq_iff_eq, UInt64.toNat_inj]

@[simp] theorem IntCC.eq_eval (a b : Word) : IntCC.eq.eval .i64 a b = (a == b) := toNat_beq a b

@[simp] theorem IntCC.ne_eval (a b : Word) : IntCC.ne.eval .i64 a b = (a != b) :=
  congrArg not (toNat_beq a b)

@[simp] theorem toUInt32_ofBool (t : Bool) : (ofBool t).toUInt32 = if t then 1 else 0 := by
  cases t <;> rfl

theorem BinaryOp.and_ofBool (s t : Bool) :
    Ty.normalize .i32 (BinaryOp.and.eval .i32 (ofBool s) (ofBool t)) = ofBool (s && t) := by
  cases s <;> cases t <;> rfl

theorem BinaryOp.or_ofBool (s t : Bool) :
    Ty.normalize .i32 (BinaryOp.or.eval .i32 (ofBool s) (ofBool t)) = ofBool (s || t) := by
  cases s <;> cases t <;> rfl

theorem Emit.one_yields {σ : Type} {m : Machine σ} {b : Builder} {c : Config σ} :
    (Emit.int32 1).Yields m b c .i32 (ofBool true) := (Emit.int32_yields 1).congr rfl

theorem Emit.zero_yields {σ : Type} {m : Machine σ} {b : Builder} {c : Config σ} :
    (Emit.int32 0).Yields m b c .i32 (ofBool false) := (Emit.int32_yields 0).congr rfl

end Lir

namespace Lowering

@[simp] theorem ofInt_wordImm (w : Word) : (Int64.ofInt (wordImm w)).toUInt64 = w := by
  simp [wordImm]

variable {σ : Type} {m : Machine σ} {env : Env} {b : Builder} {c : Config σ} {value : Reg}
  {w : Word}

/-! ## Kinds of words -/

theorem isInt32_yields (h : c.Has b value .i64 w) :
    (isInt32 value).Yields m b c .i32 (ofBool (Value.isInt32 w)) := by
  refine (Emit.icmpImm_yields h).congr ?_
  simp [IntCC.eval, IntCC.holds, Value.isInt32_eq_le]

theorem isNumber_yields (h : c.Has b value .i64 w) :
    (isNumber value).Yields m b c .i32 (ofBool (Value.isNumber w)) := by
  refine (Emit.binaryImm_yields h).bind fun _ ht => (Emit.icmpImm_yields ht).congr ?_
  simp only [Ty.normalize_i64, BinaryOp.and_eval, ofInt_wordImm, IntCC.ne_eval]
  rfl

theorem isCell_yields (h : c.Has b value .i64 w) :
    (isCell value).Yields m b c .i32 (ofBool (Value.isCell w)) := by
  refine (Emit.binaryImm_yields h).bind fun _ ht => (Emit.icmpImm_yields ht).congr ?_
  simp only [Ty.normalize_i64, BinaryOp.and_eval, ofInt_wordImm, IntCC.eq_eval]
  rfl

theorem isBoolean_yields (h : c.Has b value .i64 w) :
    (isBoolean value).Yields m b c .i32 (ofBool (Value.isBoolean w)) := by
  refine (Emit.word_yields _).bind fun hf hfalse => ?_
  refine (Emit.binary_yields (h.later hf) hfalse).bind fun _ hflip => ?_
  refine (Emit.binaryImm_yields hflip).bind fun _ hrest => (Emit.icmpImm_yields hrest).congr ?_
  simp only [Ty.normalize_i64, BinaryOp.and_eval, BinaryOp.xor_eval, IntCC.eq_eval,
    Value.isBoolean_eq_xor]
  rfl

theorem isOther_yields (h : c.Has b value .i64 w) :
    (isOther value).Yields m b c .i32 (ofBool (Value.isOther w)) :=
  (Emit.binaryImm_yields h).bind fun _ ht => (Emit.icmpImm_yields ht).congr
    (by simp [Value.isOther])

theorem isMisc_yields (h : c.Has b value .i64 w) :
    (isMisc value).Yields m b c .i32 (ofBool (Value.isMisc w)) := by
  refine (isBoolean_yields h).bind fun hf hb => ?_
  refine (isOther_yields (h.later hf)).bind fun hf' ho => ?_
  exact (Emit.binary_yields (hb.later hf') ho).congr (BinaryOp.or_ofBool _ _)

theorem negated_yields {test : Reg} {t : Bool} (h : c.Has b test .i32 (ofBool t)) :
    (negated test).Yields m b c .i32 (ofBool !t) :=
  (Emit.icmpImm_yields h).congr (by cases t <;> rfl)

/-- The test that an int32 check makes. -/
theorem notInt32_yields (h : c.Has b value .i64 w) :
    (Emit.icmpImm .ult value (wordImm Value.numberTag)).Yields m b c .i32
      (ofBool !Value.isInt32 w) := by
  refine (Emit.icmpImm_yields h).congr ?_
  simp only [IntCC.eval, IntCC.holds, Value.isInt32_eq_le, Ty.normalize_i64, ofInt_wordImm]
  rw [← decide_not]
  congr 2
  simp

/-! ## Cells -/

theorem read_one (memory : Memory) (a : Word) : memory.read a 1 = (memory.byte a).toUInt64 := by
  simp [Memory.read]

theorem cellTag_yields (h : c.Has b value .i64 w) :
    Yields m env b c (cellTag value) .i32 (UInt64.ofNat (Cell.tag env.layout c.memory w)) := by
  refine .ofRead (.ofEmit ((Emit.load_yields h).congr ?_))
  simp only [MemWidth.bytes, MemWidth.decode, read_one, Ty.normalize, Cell.tag]
  rw [← UInt64.toNat_inj]
  simp

/-- A constant that a 32-bit value is compared with. -/
theorem low_ofInt (k : Nat) :
    (Ty.normalize .i32 (Int64.ofInt k).toUInt64).toUInt32 = UInt32.ofNat k := by
  simp [Ty.normalize, Int64.ofInt_eq_ofNat]

/-- A diamond whose condition is a test. -/
theorem test_yields {cond : Reg} {t : Bool} {ty : Ty} {weight : BranchWeight}
    {thenArm elseArm : Lower Reg} [Tidy thenArm] [Tidy elseArm] {v : Word}
    (hcond : c.Has b cond .i32 (ofBool t)) (hthen : t = true → Yields m env b c thenArm ty v)
    (helse : t = false → Yields m env b c elseArm ty v) :
    Yields m env b c (diamond ty cond weight thenArm elseArm) ty v := by
  refine diamond_yields hcond (fun hz => hthen ?_) (fun hz => helse ?_)
  · cases t <;> simp_all
  · cases t <;> simp_all

section Tags

variable {tag : Reg} {n : Nat} {cellType : CellType}

/-- A tag compared with that of a cell type. -/
theorem tagNe_yields (hn : n < 256) (h : c.Has b tag .i32 (UInt64.ofNat n)) :
    (Emit.icmpImm .ne tag cellType.tag).Yields m b c .i32 (ofBool (n != cellType.tag)) := by
  have hk := cellType.tag_lt
  refine (Emit.icmpImm_yields h).congr ?_
  simp only [IntCC.eval, IntCC.holds, low_ofInt, UInt64.toUInt32_ofNat', UInt32.toNat_ofNat']
  rw [Nat.mod_eq_of_lt (by omega), Nat.mod_eq_of_lt (by omega)]

theorem tagEq_yields (hn : n < 256) (h : c.Has b tag .i32 (UInt64.ofNat n)) :
    (Emit.icmpImm .eq tag cellType.tag).Yields m b c .i32 (ofBool (n == cellType.tag)) := by
  have hk := cellType.tag_lt
  refine (Emit.icmpImm_yields h).congr ?_
  simp only [IntCC.eval, IntCC.holds, low_ofInt, UInt64.toUInt32_ofNat', UInt32.toNat_ofNat']
  rw [Nat.mod_eq_of_lt (by omega), Nat.mod_eq_of_lt (by omega)]

end Tags

theorem isNotObjectTag_yields {tag : Reg}
    (h : c.Has b tag .i32 (UInt64.ofNat (Cell.tag env.layout c.memory w))) :
    Yields m env b c (isNotObjectTag tag) .i32 (ofBool !Cell.hasObjectTag env.layout c.memory
      w) := by
  refine .ofRead (.ofEmit ((Emit.icmpImm_yields h).congr ?_))
  simp only [IntCC.eval, IntCC.holds, low_ofInt, UInt64.toUInt32_ofNat', Cell.hasObjectTag,
    UInt32.le_iff_toNat_le]
  rw [← decide_not]
  congr 2
  simp

theorem hasCellType_yields {cellType : CellType} (h : c.Has b value .i64 w) :
    Yields m env b c (hasCellType value cellType) .i32
      (ofBool (Cell.tag env.layout c.memory w == cellType.tag)) :=
  (cellTag_yields h).bind fun _ ht => .ofEmit (tagEq_yields (Cell.tag_lt ..) ht)

/-- A flag in a 32-bit value. -/
theorem flag_eval (x : Word) :
    IntCC.eq.eval .i32 (Ty.normalize .i32 (BinaryOp.and.eval .i32 (Ty.normalize .i32 x)
      (Ty.normalize .i32 (Int64.ofInt stringIsAtomic).toUInt64)))
        (Ty.normalize .i32 (Int64.ofInt 0).toUInt64) =
      (x.toUInt32 &&& 2 == 0) := by
  have hand : (Ty.normalize .i32 (BinaryOp.and.eval .i32 (Ty.normalize .i32 x)
      (Ty.normalize .i32 (Int64.ofInt stringIsAtomic).toUInt64))).toUInt32 = x.toUInt32 &&& 2 := by
    simp only [BinaryOp.eval, binary32, ofInt32, low32, Ty.normalize, UInt32.toUInt32_toUInt64]
    rfl
  simp only [IntCC.eval, IntCC.holds, hand]
  rw [Bool.eq_iff_iff, beq_iff_eq, beq_iff_eq, ← UInt32.toNat_inj]
  exact Iff.rfl

theorem isNotIdentString_yields (h : c.Has b value .i64 w) :
    Yields m env b c (isNotIdentString value) .i32 (ofBool !Cell.isIdentString env.layout c.memory
      w) := by
  refine .ofRead (.bind (.ofEmit (Emit.load_yields h)) fun hf himpl => ?_)
  refine .bind (.ofEmit (Emit.icmpImm_yields himpl)) fun hf' hrope => ?_
  simp only [Ty.normalize_i64, IntCC.eq_eval, MemWidth.bytes, MemWidth.decode] at himpl hrope
  refine test_yields hrope (fun hz => ?_) (fun hz => ?_)
  · refine .ofEmit (Emit.one_yields.congr ?_)
    replace hz := beq_iff_eq.1 hz
    rw [Cell.isIdentString, hz]
    rfl
  · refine .ofRead (.bind (.ofEmit (Emit.load_yields (himpl.later hf'))) fun hf'' hflags => ?_)
    refine .bind (.ofEmit (Emit.binaryImm_yields hflags)) fun _ hatomic => ?_
    refine .ofEmit ((Emit.icmpImm_yields hatomic).congr ?_)
    rw [hf'.memory, hf.memory, flag_eval]
    have hne : (c.memory.read (Machine.address w (Int32.ofInt (env.layout.fieldOffset .stringImpl)))
      8 != 0) = true :=
      congrArg not hz
    rw [Cell.isIdentString, hne, Bool.true_and, bne, Bool.not_not]
    rfl

theorem isStringVar_yields (h : c.Has b value .i64 w) :
    Yields m env b c (isStringVar value) .i32 (ofBool (Value.isCell w &&
      Cell.tag env.layout c.memory w == CellType.string.tag && !Cell.isIdentString env.layout
        c.memory w)) := by
  refine .bind (.ofEmit (isCell_yields h)) fun hf hcell => ?_
  refine test_yields hcell (fun hz => ?_)
    (fun hz => .ofEmit (Emit.zero_yields.congr (by simp [hz])))
  refine (hasCellType_yields (h.later hf)).bind fun hf' hstring => ?_
  rw [hf.memory] at hstring
  refine test_yields hstring (fun hz' => ?_)
    (fun hz' => .ofEmit (Emit.zero_yields.congr (by simp [hz'])))
  refine (isNotIdentString_yields (h.later (hf.trans hf'))).congr ?_
  rw [hf'.memory, hf.memory, hz, hz']
  rfl

/-! ## Numbers -/

theorem unboxDouble_yields (h : c.Has b value .i64 w) :
    (unboxDouble value).Yields m b c .f64 (Value.unboxDouble w).bits := by
  refine (Emit.binaryImm_yields h).bind fun _ hbits => (Emit.bitcastToDouble_yields hbits).congr ?_
  simp only [Ty.normalize_i64, BinaryOp.add_eval, ofInt_wordImm, Value.unboxDouble,
    UInt64.sub_eq_add_neg]
  rw [UInt64.zero_add]

/-- Not a number, or NaN. -/
theorem isNotRealNumber_yields (h : c.Has b value .i64 w) :
    Yields m env b c (isNotRealNumber value) .i32
      (ofBool !(Value.isInt32 w || Value.isNumber w && !(Value.unboxDouble w).isNaN)) := by
  refine .bind (.ofEmit (isInt32_yields h)) fun hf hint => ?_
  refine test_yields hint (fun hz => .ofEmit (Emit.zero_yields.congr (by simp [hz]))) fun hz => ?_
  refine .bind (.ofEmit (isNumber_yields (h.later hf))) fun hf' hnum => ?_
  refine test_yields hnum (fun hz' => ?_) fun hz' =>
    .ofEmit (Emit.one_yields.congr (by simp [hz, hz']))
  refine .bind (.ofEmit (unboxDouble_yields (h.later (hf.trans hf')))) fun _ hd => ?_
  refine .ofEmit ((Emit.fcmp_yields hd hd).congr ?_)
  simp [FloatCC.eval, hz, hz']

theorem isNotObjectOrOther_yields (h : c.Has b value .i64 w) :
    Yields m env b c (isNotObjectOrOther value) .i32 (ofBool !(if Value.isCell w
      then Cell.hasObjectTag env.layout c.memory w else Value.isOther w)) := by
  refine .bind (.ofEmit (isCell_yields h)) fun hf hcell => ?_
  refine test_yields hcell (fun hz => ?_) fun hz => ?_
  · refine (cellTag_yields (h.later hf)).bind fun hf' htag => ?_
    rw [← hf'.memory] at htag
    refine (isNotObjectTag_yields htag).congr ?_
    rw [hf'.memory, hf.memory, if_pos hz]
  · refine .bind (.ofEmit (isOther_yields (h.later hf))) fun _ hother =>
      .ofEmit ((negated_yields hother).congr ?_)
    rw [hz, if_neg Bool.false_ne_true]

/-! ## Boxing -/

theorem boxInt32_yields {ty : Ty} (h : c.Has b value ty w) :
    (boxInt32 value).Yields m b c .i64 (Value.boxInt32 (low32 w)) := by
  refine (Emit.zeroExtend_yields h).bind fun _ hwide => (Emit.binaryImm_yields hwide).congr ?_
  simp only [Ty.normalize_i64, BinaryOp.or_eval, ofInt_wordImm, Value.boxInt32, extend, low32]
  exact UInt64.or_comm _ _

theorem boxBoolean_yields {ty : Ty} {t : Bool} (h : c.Has b value ty (ofBool t)) :
    (boxBoolean value).Yields m b c .i64 (Value.boxBoolean t) :=
  (Emit.zeroExtend_yields h).bind fun _ hwide => (Emit.binaryImm_yields hwide).congr
    (by cases t <;> rfl)

/-- A double is boxed as it is, unless it may be a NaN that has to be replaced. -/
theorem boxDouble_yields {ty : Ty} {d : Double} (h : c.Has b value ty d.bits)
    (couldBeImpureNaN : Bool) :
    (boxDouble value couldBeImpureNaN).Yields m b c .i64
      ((if couldBeImpureNaN && d.isNaN then Double.pureNaN else d).bits + Value.doubleOffset) := by
  refine (Emit.bitcastToInt_yields h).bind fun hf hbits => ?_
  cases couldBeImpureNaN with
  | false => exact (Emit.binaryImm_yields hbits).congr (by simp)
  | true =>
    refine (Emit.fcmp_yields (h.later hf) (h.later hf)).bind fun hf₁ hnan => ?_
    refine (Emit.word_yields _).bind fun hf₂ hpure => ?_
    refine (Emit.select_yields (hnan.later hf₂) hpure (hbits.later (hf₁.trans hf₂))).bind
      fun _ hsel => ?_
    refine (Emit.binaryImm_yields hsel).congr ?_
    cases hn : d.isNaN <;> simp [FloatCC.eval, hn]

end Lowering

end SpecJit

namespace SpecJit.Lowering

open Lir Emit

variable {b : Builder} {value : Reg}

/-! ## The code can be emitted -/

theorem isInt32_defines (h : b.func.types[value.index]? = some .i64) :
    (isInt32 value).Defines b .i32 := icmpImm_defines h

/-- Some bits of a word are compared with a constant. -/
theorem masked_defines {cc : IntCC} {mask n : Int} (h : b.func.types[value.index]? = some .i64) :
    (binaryImm .and value mask >>= fun r => icmpImm cc r n).Defines b .i32 :=
  (binaryImm_defines h).bind fun _ ht => icmpImm_defines ht

theorem isNumber_defines (h : b.func.types[value.index]? = some .i64) :
    (isNumber value).Defines b .i32 := masked_defines h

theorem isCell_defines (h : b.func.types[value.index]? = some .i64) :
    (isCell value).Defines b .i32 := masked_defines h

theorem isOther_defines (h : b.func.types[value.index]? = some .i64) :
    (isOther value).Defines b .i32 := masked_defines h

theorem isBoolean_defines (h : b.func.types[value.index]? = some .i64) :
    (isBoolean value).Defines b .i32 :=
  .bind define_defines fun e _ => .bind (binary_defines (e.types _ _ h)) fun _ hflip =>
    masked_defines hflip

theorem isMisc_defines (h : b.func.types[value.index]? = some .i64) :
    (isMisc value).Defines b .i32 :=
  (isBoolean_defines h).bind fun e hb => (isOther_defines (e.types _ _ h)).bind fun e' _ =>
    binary_defines (e'.types _ _ hb)

/-- A register is widened, and gets a tag. -/
theorem tagged_defines {tag : Int} :
    (zeroExtend value >>= fun r => binaryImm .or r tag).Defines b .i64 :=
  .bind define_defines fun _ hwide => binaryImm_defines hwide

theorem boxDouble_defines {couldBeImpureNaN : Bool} :
    (boxDouble value couldBeImpureNaN).Defines b .i64 := by
  refine .bind define_defines fun _ hbits => ?_
  cases couldBeImpureNaN with
  | false => exact binaryImm_defines hbits
  | true =>
    refine .bind define_defines fun _ _ => .bind define_defines fun _ hpure => ?_
    exact (select_defines hpure).bind fun _ hsel => binaryImm_defines hsel

theorem unboxDouble_defines (h : b.func.types[value.index]? = some .i64) :
    (unboxDouble value).Defines b .f64 :=
  (binaryImm_defines h).bind fun _ _ => define_defines

/-! ## The code computes the function -/

/-- A double that needs no replacement is boxed as it is. -/
theorem boxDouble_of_not_isNaN {d : Double} (h : d.isNaN = false) :
    Value.boxDouble d = d.bits + Value.doubleOffset := by
  rw [Value.boxDouble, Value.purifyNaN_of_not_isNaN h]

theorem unboxBoolean_eq {w : Word} (h : Value.isBoolean w = true) :
    Value.unboxBoolean w = (w == Value.trueWord) := by
  rcases Value.isBoolean_iff.1 h with rfl | rfl <;> rfl

/-- The code for words agrees with the functions on words (module doc). -/
theorem word_code_computes :
    -- tests, on every word
    Computes isInt32 .i64 id .i32 (fun w => ofBool (Value.isInt32 w)) ∧
    Computes isNumber .i64 id .i32 (fun w => ofBool (Value.isNumber w)) ∧
    Computes isCell .i64 id .i32 (fun w => ofBool (Value.isCell w)) ∧
    Computes isBoolean .i64 id .i32 (fun w => ofBool (Value.isBoolean w)) ∧
    Computes isOther .i64 id .i32 (fun w => ofBool (Value.isOther w)) ∧
    Computes isMisc .i64 id .i32 (fun w => ofBool (Value.isMisc w)) ∧
    -- boxing and unboxing; a boolean is unboxed by comparing it with the word for true
    Computes boxInt32 .i32 ofInt32 .i64 Value.boxInt32 ∧
    Computes boxBoolean .i32 ofBool .i64 Value.boxBoolean ∧
    Computes truncate .i64 id .i32 (fun w => ofInt32 (Value.unboxInt32 w)) ∧
    Computes unboxDouble .i64 id .f64 (fun w => (Value.unboxDouble w).bits) ∧
    Computes (icmpImm .eq · (wordImm Value.trueWord)) .i64
      (fun w : { w // Value.isBoolean w = true } => w.1) .i32
      (fun w => ofBool (Value.unboxBoolean w.1)) ∧
    -- doubles, with and without a replacement of NaN
    (∀ couldBeImpureNaN, Computes (boxDouble · couldBeImpureNaN) .f64
      (fun d : { d : Double // d.isNaN = false } => d.1.bits) .i64
      (fun d => Value.boxDouble d.1)) ∧
    Computes (boxDouble · true) .f64 (fun d : { d : Double // d.isNaN = true } => d.1.bits) .i64
      (fun _ => Value.boxDouble Double.pureNaN) := by
  refine ⟨.intro isInt32_defines fun _ h => isInt32_yields h, .intro isNumber_defines fun _ h =>
    isNumber_yields h,
    .intro isCell_defines fun _ h => isCell_yields h, .intro isBoolean_defines fun _ h =>
      isBoolean_yields h,
    .intro isOther_defines fun _ h => isOther_yields h, .intro isMisc_defines fun _ h =>
      isMisc_yields h,
    .intro (fun _ => tagged_defines) fun n h => (boxInt32_yields h).congr ?_,
    .intro (fun _ => tagged_defines) fun _ h => boxBoolean_yields h,
    .intro (fun _ => define_defines) fun w h => (truncate_yields h).congr ?_,
    .intro unboxDouble_defines fun _ h => unboxDouble_yields h,
    .intro icmpImm_defines fun w h => (icmpImm_yields h).congr ?_,
    fun flag => .intro (fun _ => boxDouble_defines) fun d h => (boxDouble_yields h flag).congr ?_,
    .intro (fun _ => boxDouble_defines) fun d h => (boxDouble_yields h true).congr ?_⟩
  · rw [low32_ofInt32]
  · rfl
  · rw [unboxBoolean_eq w.2, Ty.normalize_i64, ofInt_wordImm, IntCC.eq_eval]
  · rw [boxDouble_of_not_isNaN d.2, d.2, Bool.and_false]
    rfl
  · rw [d.2]
    rfl

end SpecJit.Lowering
