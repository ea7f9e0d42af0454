import SpecJit.Proofs.Lir.Integers
import SpecJit.Proofs.Lowering.DeadEnds
import SpecJit.Proofs.Lowering.Elements

/-!
# Elements of arrays of integers

A store of an int32 into an array of integers writes the low bytes of the element, clamped to a byte
if the array asks for it (`putInteger_performs`). A load gives the integer that the bytes stand for,
signed or unsigned (`getInteger_performs`). One after the other they convert the int32 to the kind
of the elements (`integer_read_back`).
-/

namespace SpecJit

open Lir

/-! ## Integers in bytes -/

namespace ElementKind

/-- The integer in the bytes of an element. -/
def integer (kind : ElementKind) (raw : Word) : Int :=
  if kind.isSigned then Int.bmod raw.toNat (256 ^ kind.size) else raw.toNat

/-- What an int32 is converted to when it is stored into an array of integers. -/
def convert (kind : ElementKind) (v : Int32) : Int :=
  if kind = .uint8Clamped then max 0 (min v.toInt 255)
  else if kind.isSigned then v.toInt.bmod (256 ^ kind.size)
  else v.toInt % 256 ^ kind.size

/-- The int32 whose low bytes are stored. -/
def stored (kind : ElementKind) (v : Int32) : Int32 :=
  if kind = .uint8Clamped then Int32.ofInt (max 0 (min v.toInt 255)) else v

theorem size_bits (kind : ElementKind) (hint : kind.isFloat = false) :
    256 ^ kind.size ∣ 2 ^ 32 := by
  cases kind <;> first | decide | cases hint

theorem toNat_ofInt32 (n : Int32) : ((ofInt32 n).toNat : Int) = n.toInt % 2 ^ 32 := by
  rw [ofInt32, UInt32.toNat_toUInt64]
  change (n.toBitVec.toNat : Int) = n.toBitVec.toInt % (2 ^ 32 : Nat)
  rw [BitVec.toInt_eq_toNat_bmod, Int.bmod_emod]
  have := n.toBitVec.isLt
  omega

/-- The bytes that were stored stand for the converted integer. -/
theorem integer_stored {kind : ElementKind} (hint : kind.isFloat = false) {v : Int32} {raw : Word}
    (hraw : raw.toNat = (ofInt32 (kind.stored v)).toNat % 256 ^ kind.size) :
    kind.integer raw = kind.convert v := by
  have hbits : (raw.toNat : Int) = (kind.stored v).toInt % (256 ^ kind.size : Nat) := by
    rw [hraw, Int.natCast_emod, toNat_ofInt32]
    exact Int.emod_emod_of_dvd _ (Int.natCast_dvd_natCast.2 (size_bits kind hint))
  unfold integer convert
  by_cases hclamp : kind = .uint8Clamped
  · subst hclamp
    rw [stored, if_pos rfl, Int32.toInt_ofInt_of_le (by omega) (by omega)] at hbits
    rw [if_neg (by decide), if_pos rfl, hbits]
    change _ % 256 = _
    omega
  · rw [stored, if_neg hclamp] at hbits
    rw [if_neg hclamp, hbits]
    split
    · exact Int.emod_bmod v.toInt (256 ^ kind.size)
    · simp

theorem ofInt32_ofInt {raw : Word} (h : raw.toNat < 2 ^ 32) :
    ofInt32 (Int32.ofInt raw.toNat) = raw := by
  rw [← UInt64.toNat_inj]
  have hbits := toNat_ofInt32 (Int32.ofInt raw.toNat)
  rw [Int32.toInt_ofInt] at hbits
  change _ = Int.bmod _ 4294967296 % (4294967296 : Nat) at hbits
  rw [Int.bmod_emod] at hbits
  omega

/-- Loading the bytes of an element gives its integer, as far as 32 bits can. -/
theorem decode_integer {kind : ElementKind} (hint : kind.isFloat = false) {raw : Word}
    (h : raw.toNat < 256 ^ kind.size) :
    Ty.normalize .i32 (kind.width.decode kind.isSigned raw) = ofInt32
      (Int32.ofInt (kind.integer raw)) := by
  have hfits : raw.toNat < 2 ^ 32 :=
    Nat.lt_of_lt_of_le h (Nat.le_of_dvd (by decide) (size_bits kind hint))
  unfold integer
  cases hsigned : kind.isSigned with
  | false =>
    have hdecode : kind.width.decode false raw = raw := by cases kind <;> first | rfl | cases hint
    have hlow : raw.toUInt32.toUInt64 = raw := by
      rw [← UInt64.toNat_inj]
      simpa using hfits
    rw [hdecode, if_neg Bool.false_ne_true, ofInt32_ofInt hfits, Ty.normalize, hlow]
  | true =>
    rw [if_pos rfl]
    have hword (w : Word) : Ty.normalize .i32 w = ofInt32 (low32 w) := rfl
    rw [hword]
    congr 1
    cases kind with
    | int8 =>
      have hbytes : raw.toUInt8.toInt8.toInt = Int.bmod raw.toNat 256 := by
        change (raw.toBitVec.setWidth 8).toInt = _
        rw [BitVec.toInt_setWidth]
        rfl
      change low32 raw.toUInt8.toInt8.toInt64.toUInt64 = Int32.ofInt (Int.bmod raw.toNat 256)
      rw [← hbytes, low32_toUInt64]
      simp
    | int16 =>
      have hbytes : raw.toUInt16.toInt16.toInt = Int.bmod raw.toNat 65536 := by
        change (raw.toBitVec.setWidth 16).toInt = _
        rw [BitVec.toInt_setWidth]
        rfl
      change low32 raw.toUInt16.toInt16.toInt64.toUInt64 = Int32.ofInt (Int.bmod raw.toNat 65536)
      rw [← hbytes, low32_toUInt64]
      simp
    | int32 =>
      have hbytes : raw.toUInt32.toInt32.toInt = Int.bmod raw.toNat 4294967296 := by
        change (raw.toBitVec.setWidth 32).toInt = _
        rw [BitVec.toInt_setWidth]
        rfl
      change low32 raw.toUInt32.toInt32.toInt64.toUInt64 = Int32.ofInt
        (Int.bmod raw.toNat 4294967296)
      rw [← hbytes, low32_toUInt64]
      simp
    | _ => cases hsigned

end ElementKind

/-! ## Clamping -/

theorem Lir.select_ofBool (p : Bool) (w v : Word) :
    (if (ofBool p).toUInt32 ≠ 0 then w else v) = if p then w else v := by
  cases p <;> rfl

/-- The code that clamps an int32 to a byte. -/
theorem Lowering.clampInt32_yields {σ : Type} {m : Machine σ} {b : Builder} {c : Config σ}
    {value : Reg} {v : Int32} (hv : c.Has b value .i32 (ofInt32 v)) :
    (clampInt32 value).Yields m b c .i32 (ofInt32 (ElementKind.stored .uint8Clamped v)) := by
  have hlow : Ty.normalize .i32 (if decide (v.toInt < 0) then ofInt32 (Int32.ofInt 0) else ofInt32
    v) =
      ofInt32 (Int32.ofInt (max 0 v.toInt)) := by
    by_cases hneg : v.toInt < 0
    · rw [if_pos (by simpa using hneg), normalize_ofInt32, max_eq_left (by omega)]
    · rw [if_neg (by simpa using hneg), normalize_ofInt32, max_eq_right (by omega),
        Int32.ofInt_toInt]
  have hrange : (Int32.ofInt (max 0 v.toInt)).toInt = max 0 v.toInt := by
    have := v.toInt_lt
    exact Int32.toInt_ofInt_of_le (by omega) (by omega)
  have htest : IntCC.sgt.eval .i32 (ofInt32 (Int32.ofInt (max 0 v.toInt)))
    (Ty.normalize .i32 (Int64.ofInt 255).toUInt64) =
      decide (255 < v.toInt) := by
    simp only [normalize_ofInt, IntCC.eval, IntCC.holds, low32_ofInt32, hrange]
    change decide (255 < max 0 v.toInt) = _
    exact decide_eq_decide.2 (by omega)
  refine (Emit.int32_yields 0).bind fun h₁ hzero => (Emit.int32_yields 255).bind fun h₂ hmax => ?_
  refine (Emit.negative_int32 (hv.later (h₁.trans h₂))).bind fun h₃ hneg => ?_
  refine ((Emit.select_yields hneg (hzero.later (h₂.trans h₃))
    (hv.later (h₁.trans (h₂.trans h₃)))).congr
    ((congrArg _ (select_ofBool ..)).trans hlow)).bind fun h₄ hclamped => ?_
  refine ((Emit.icmpImm_yields hclamped).congr (congrArg ofBool htest)).bind fun h₅ ht => ?_
  refine (Emit.select_yields ht (hmax.later (h₃.trans (h₄.trans h₅))) (hclamped.later h₅)).congr ?_
  rw [select_ofBool, ElementKind.stored, if_pos rfl]
  by_cases hbig : 255 < v.toInt
  · rw [if_pos (by simpa using hbig), normalize_ofInt32, min_eq_right (by omega),
      max_eq_right (by omega)]
  · rw [if_neg (by simpa using hbig), normalize_ofInt32, min_eq_left (by omega)]

namespace ElementKind

/-- The word of an integer of an array, in the form that a load yields. -/
def wordAs (kind : ElementKind) (form : Form) (k : Int) : Word :=
  match form with
  | .int32 => ofInt32 (Int32.ofInt k)
  | .double => (Double.ofInt k).bits
  | _ => if kind = .uint32 then Value.boxDouble (Double.ofInt k) else Value.boxInt32 (Int32.ofInt k)

/-- All integers fit an int32, but for those of arrays of unsigned integers of 32 bits. -/
theorem toInt_integer {kind : ElementKind} (hint : kind.isFloat = false) (hkind : kind ≠ .uint32)
    {raw : Word} (h : raw.toNat < 256 ^ kind.size) :
    (Int32.ofInt (kind.integer raw)).toInt = kind.integer raw := by
  unfold integer
  have hbits := Nat.le_of_dvd (by decide) (size_bits kind hint)
  split
  case isTrue =>
    have hlow : _ ≤ Int.bmod raw.toNat _ :=
      Int.le_bmod (Nat.pow_pos (n := kind.size) (show 0 < 256 by decide))
    have hhigh : Int.bmod raw.toNat _ < _ :=
      Int.bmod_lt (Nat.pow_pos (n := kind.size) (show 0 < 256 by decide))
    exact Int32.toInt_ofInt_of_le (by omega) (by omega)
  case isFalse hunsigned =>
    have hsize : kind.size ≤ 2 := by
      cases kind <;> cases hint <;> first
        | decide
        | exact absurd rfl hunsigned
        | exact absurd rfl hkind
    have hraw : raw.toNat < 256 ^ 2 := Nat.lt_of_lt_of_le h (Nat.pow_le_pow_right (by decide) hsize)
    exact Int32.toInt_ofInt_of_le (by omega) (by omega)

end ElementKind

namespace View

/-- The integer that is an element of a typed array. -/
def integer (layout : ObjectLayout) (memory : Memory) (kind : ElementKind) (view : Word)
    (index : Int32) : Int :=
  kind.integer (memory.read (elementAddress layout memory kind view index) kind.size)

/-- What the load of an element of an array of integers gives, or how it leaves. -/
def load (layout : ObjectLayout) (memory : Memory) (kind : ElementKind) (form : Form) (view : Word)
    (index : Int32) :
    Except ExitKind Word :=
  if length layout memory view ≤ index.toUInt32 then .error .outOfBounds
  else if kind = .uint32 ∧ form = .int32 ∧ 2 ^ 31 ≤ integer layout memory kind view index
    then .error .overflow
  else .ok (kind.wordAs form (integer layout memory kind view index))

/-- Memory after the store of an int32 into an element of an array of integers. -/
def store (layout : ObjectLayout) (memory : Memory) (kind : ElementKind) (view : Word)
    (index v : Int32) : Memory :=
  memory.write (elementAddress layout memory kind view index) kind.size (ofInt32 (kind.stored v))

theorem load_map {α : Type} {layout : ObjectLayout} {memory : Memory} {kind : ElementKind}
    {form : Form} {view : Word} {index : Int32} (f : Word → α) :
    (load layout memory kind form view index).map f =
      if length layout memory view ≤ index.toUInt32 then .error .outOfBounds
      else if kind = .uint32 ∧ form = .int32 ∧ 2 ^ 31 ≤ integer layout memory kind view index
        then .error .overflow
      else .ok (f (kind.wordAs form (integer layout memory kind view index))) := by
  unfold load
  split
  · rfl
  · split <;> rfl

/-- The element shares no byte with the length of its array and the address of the elements. -/
structure Apart (layout : ObjectLayout) (memory : Memory) (kind : ElementKind) (view : Word)
    (index : Int32) : Prop where
  length : Memory.Apart (elementAddress layout memory kind view index) kind.size
    (Machine.address view (Int32.ofInt (layout.fieldOffset .typedArrayLength))) 4
  vector : Memory.Apart (elementAddress layout memory kind view index) kind.size
    (Machine.address view (Int32.ofInt (layout.fieldOffset .typedArrayVector))) 8

section

variable {layout : ObjectLayout} {memory : Memory} {kind : ElementKind} {view : Word}
  {index v : Int32}

theorem length_store (h : Apart layout memory kind view index) :
    length layout (store layout memory kind view index v) view = length layout memory view :=
  congrArg UInt64.toUInt32 (Memory.read_write_apart h.length)

/-- What is loaded after a store is the converted integer. -/
theorem integer_store (hint : kind.isFloat = false) (h : Apart layout memory kind view index) :
    integer layout (store layout memory kind view index v) kind view index = kind.convert v := by
  have haddress : elementAddress layout (store layout memory kind view index v) kind view index =
      elementAddress layout memory kind view index :=
    congrArg (· + _) (Memory.read_write_apart h.vector)
  have hsize : kind.size ≤ 8 := by cases kind <;> decide
  rw [integer, haddress]
  exact ElementKind.integer_stored hint (Memory.read_write_self hsize)

end

end View

namespace Lowering

section

variable {σ : Type} {m : Machine σ} {L : Set Word} {c : Config σ} {env : Env} {s s' : State}
  {id : NodeId} {node : Node} {form : Form} {kind : ElementKind} {mode : ArrayMode}
  {base at_ value : Edge} {rest : List Edge} {storage index : Reg} {view v : Word} {n k : Int32}
  {u : Unit}

/-! ## Loads -/

theorem shift_lt (kind : ElementKind) : kind.shift < 64 := by cases kind <;> decide

theorem size_le (kind : ElementKind) : kind.size ≤ 8 := by cases kind <;> decide

theorem bytes_width (kind : ElementKind) : kind.width.bytes = kind.size := by cases kind <;> rfl

theorem encode_width (hint : kind.isFloat = false) (w : Word) : kind.width.encode w = w := by
  cases kind <;> cases hint <;> rfl

theorem loadTypedElement_integer (hint : kind.isFloat = false) (hkind : kind ≠ .uint32) :
    (do
      let (value, loaded) ← loadTypedElement id kind storage index
      setElement id value loaded) = (do
      let address ← elementAddress storage index kind.shift
      let value ← Emit.load .i32 kind.width kind.isSigned address 0
      setElement id value .int32) := by
  cases kind <;> cases hint <;> first | exact absurd rfl hkind | simp [loadTypedElement]

/-- Records an unsigned integer; one that does not fit into an int32 result leaves. -/
theorem loadTypedElement_uint32 :
    (do
      let (value, loaded) ← loadTypedElement id .uint32 storage index
      setElement id value loaded) = (do
      let address ← elementAddress storage index 2
      let raw ← Emit.load32 address 0
      let node ← getNode id
      if node.result == .int32 then
        let negative ← Emit.icmpImm .slt raw 0
        speculate .overflow none negative
        setElement id raw .int32
      else
        let value ← Emit.intToDouble false raw
        setElement id value .double) := by
  simp only [loadTypedElement, bind_assoc]
  refine bind_congr fun address => bind_congr fun raw => bind_congr fun node => ?_
  split <;> simp

theorem form_int32_iff (hform : node.result.form? = some form) :
    (node.result == .int32) = true ↔ form = .int32 := by
  cases hresult : node.result <;> rw [hresult] at hform <;> cases hform <;> decide

/-- The record of an unsigned integer. -/
theorem proceeds_unsigned {value : Reg} {raw : Word} (hnode : env.graph.node id = .ok node)
    (hform : node.result.form? = some form)
    (hread : form = .int32 ∨ form = .double ∨ form = .jsValue) (hdepth : s.armDepth = 0)
    (hraw : raw.toNat < 2 ^ 32) (hvalue : c.Has s.builder value .i32 raw) :
    Proceeds m .univ env s c (do
        let node ← getNode id
        if node.result == .int32 then
          let negative ← Emit.icmpImm .slt value 0
          speculate .overflow none negative
          setElement id value .int32
        else
          let double ← Emit.intToDouble false value
          setElement id double .double)
      (if form = .int32 ∧ 2 ^ 31 ≤ raw.toNat then .error .overflow
        else .ok (HeldWord id form c.memory (ElementKind.uint32.wordAs form raw.toNat))) := by
  have hword := ElementKind.ofInt32_ofInt hraw
  refine .ofNode hnode ?_
  by_cases hint32 : form = .int32
  case pos =>
    subst hint32
    rw [if_pos ((form_int32_iff hform).2 rfl)]
    have hneg : (Int32.ofInt raw.toNat).toInt < 0 ↔ Form.int32 = .int32 ∧ 2 ^ 31 ≤ raw.toNat := by
      rw [Int32.toInt_ofInt]
      change Int.bmod raw.toNat 4294967296 < 0 ↔ _
      rw [Int.bmod_def]
      split <;> simp <;> omega
    refine .value (Yields.univ (.ofEmit (Emit.negative_int32 (hword ▸ hvalue))))
      fun hsame hfollows ht => ?_
    have hguard : Proceeds m .univ env _ _ (speculate .overflow none _ >>= fun _ => setElement id
      value .int32)
        (if decide ((Int32.ofInt raw.toNat).toInt < 0) then .error .overflow
          else .ok (HeldWord id .int32 c.memory (ElementKind.uint32.wordAs .int32 raw.toNat))) :=
      .guard ht fun _ {s₂ c₂} hsame₂ hfollows₂ =>
        proceeds_setElement hnode hform rfl ((hsame.trans hsame₂).armDepth.trans hdepth)
          (hvalue.later (hfollows.trans hfollows₂))
          (hfollows.trans hfollows₂).memory hword.symm
    simpa only [decide_eq_true_eq, hneg] using hguard
  case neg =>
    rw [if_neg fun h => hint32 ((form_int32_iff hform).1 h), if_neg fun h => hint32 h.1]
    have hnotNaN : (Double.ofInt raw.toNat).isNaN = false := Double.ofInt_isNaN (by omega)
    have hdouble : Lir.intToDouble .i32 false raw = Double.ofInt raw.toNat := by
      change Double.ofInt raw.toUInt32.toNat = _
      rw [UInt64.toNat_toUInt32, Nat.mod_eq_of_lt hraw]
    refine .value (.ofEmit (Emit.intToDouble_yieldsIn hvalue)) fun hsame hfollows hd => ?_
    rw [hdouble] at hd
    rcases hread with rfl | rfl | rfl
    · exact absurd rfl hint32
    · exact proceeds_setElement hnode hform rfl (hsame.armDepth.trans hdepth) hd hfollows.memory rfl
    · refine proceeds_setElement hnode hform rfl (hsame.armDepth.trans hdepth) hd hfollows.memory ?_
      change _ = Value.boxDouble (Double.ofInt raw.toNat)
      rw [Value.boxDouble, Value.purifyNaN_of_not_isNaN hnotNaN]
      rfl

/-- The load and the record of an element. -/
theorem proceeds_loadTypedElement {a : Word} (hnode : env.graph.node id = .ok node)
    (hform : node.result.form? = some form)
    (hread : form = .int32 ∨ form = .double ∨ form = .jsValue) (hint : kind.isFloat = false)
    (hdepth : s.armDepth = 0)
    (hs : c.Has s.builder storage .i64 a) (hi : c.Has s.builder index .i32 (ofInt32 n)) {i : Int}
    (hi' : i = kind.integer (c.memory.read (a + n.toUInt32.toUInt64 <<< UInt64.ofNat kind.shift)
      kind.size)) :
    Proceeds m .univ env s c (do
        let (value, loaded) ← loadTypedElement id kind storage index
        setElement id value loaded)
      (if kind = .uint32 ∧ form = .int32 ∧ 2 ^ 31 ≤ i then .error .overflow
        else .ok (HeldWord id form c.memory (kind.wordAs form i))) := by
  have haddress : (elementAddress storage index kind.shift).YieldsIn m .univ s.builder c .i64 _ :=
    elementAddress_yieldsIn hs hi (shift_lt kind)
  have hraw := Memory.read_lt c.memory (a + n.toUInt32.toUInt64 <<< UInt64.ofNat kind.shift)
    (size_le kind)
  by_cases hkind : kind = .uint32
  case neg =>
    rw [loadTypedElement_integer hint hkind, if_neg (by simp [hkind])]
    refine .value (.ofEmit haddress) fun hsame hfollows ha => ?_
    refine .value (.ofEmit (Emit.load_yieldsIn ha trivial)) fun hsame' hfollows' hvalue => ?_
    rw [address_zero, hfollows.memory, bytes_width, ElementKind.decode_integer hint hraw, ← hi']
      at hvalue
    have hint32 : (Int32.ofInt i).toInt = i := hi' ▸ ElementKind.toInt_integer hint hkind hraw
    have hword : Loaded.int32.wordAs form (ofInt32 (Int32.ofInt i)) = kind.wordAs form i := by
      rcases hread with rfl | rfl | rfl <;> simp [Loaded.wordAs, ElementKind.wordAs, hkind,
        low32_ofInt32, hint32]
    have hyields : Loaded.int32.yields form = true := by rcases hread with rfl | rfl | rfl <;> rfl
    exact proceeds_setElement hnode hform hyields ((hsame.trans hsame').armDepth.trans hdepth)
      hvalue
      (hfollows.trans hfollows').memory hword
  case pos =>
    subst hkind
    rw [loadTypedElement_uint32]
    refine .value (.ofEmit haddress) fun hsame hfollows ha => ?_
    refine .value (.ofEmit (Emit.load_yieldsIn ha trivial)) fun hsame' hfollows' hvalue => ?_
    rw [address_zero, hfollows.memory] at hvalue
    replace hvalue :=
      ((ElementKind.decode_integer hint hraw).trans (ElementKind.ofInt32_ofInt hraw)) ▸ hvalue
    have hrecord :=
      proceeds_unsigned (m := m) hnode hform hread ((hsame.trans hsame').armDepth.trans hdepth) hraw
        hvalue
    rw [(hfollows.trans hfollows').memory] at hrecord
    have hunsigned :
      i = (c.memory.read (a + n.toUInt32.toUInt64 <<< UInt64.ofNat ElementKind.uint32.shift)
        ElementKind.uint32.size).toNat := hi'
    rw [hunsigned]
    refine (congrArg _ (if_congr ⟨fun h => ⟨rfl, h.1, ?_⟩, fun h => ⟨h.2.1, ?_⟩⟩ rfl rfl)).mp
      hrecord
    · have := h.2
      omega
    · have := h.2.2
      omega

/-- The code of a node that uses an element of an array of integers, where it is entered. -/
structure IntegerAccess (m : Machine σ) (env : Env) (kind : ElementKind) (view : Word) (n : Int32)
    (id : NodeId) (node : Node) (mode : ArrayMode) (base at_ : Edge) (s s' : State) (c : Config σ) :
    Prop extends Entered m env id node base view s s' c where
  typed : mode.arrayType = .typedArray kind
  integer : kind.isFloat = false
  index : IsInt32 env s c at_.node n

set_option synthInstance.maxSize 400 in
/-- The code that loads an element of an array of integers. -/
theorem getInteger_performs (hx : IntegerAccess m env kind view n id node mode base at_ s s' c)
    (hop : node.op = .getByVal mode) (hchildren : node.children = base :: at_ :: rest)
    (hform : node.result.form? = some form)
    (hread : form = .int32 ∨ form = .double ∨ form = .jsValue) :
    Performs m .univ s s' c ((View.load env.layout c.memory kind form view n).map
      (HeldWord id form c.memory)) := by
  have hlower : lowerOp id node = lowerGetTypedElement id node kind := by
    unfold lowerOp
    rw [hop]
    change lowerGetByVal id node mode = _
    rw [lowerGetByVal, hx.typed]
  have hm := hx.completes
  have h := hx.lowered
  rw [hlower, lowerGetTypedElement] at h
  obtain ⟨base', hbase, h⟩ := check_bind_ok h
  obtain rfl : base = base' := by simpa [Node.child, hchildren, Fault.ofOption] using hbase
  refine performs_asCell h hm hx.stands hx.cell hx.valid hx.depth
    fun {r₁ s₁ c₁} h hreads₁ _ _ hr₁ => ?_
  obtain ⟨at', hat, h⟩ := check_bind_ok h
  obtain rfl : at_ = at' := by simpa [Node.child, hchildren, Fault.ofOption] using hat
  refine performs_asInt32 h hm hreads₁.stands (hreads₁.int32 hx.index) hreads₁.valid hreads₁.depth
    fun {r₂ s₂ c₂} h hreads₂ hr₂ => ?_
  have hmem : c₂.memory = c.memory := (hreads₁.follows.trans hreads₂.follows).memory
  refine Proceeds.performs ?_ hreads₂.stands h hm (Tidy.after h (.refl hreads₂.stands.wf))
  have hview₂ := hr₁.later hreads₂.follows
  rw [← hmem, View.load_map]
  refine .value (loadField32_yieldsIn hview₂ .typedArrayLength trivial) fun hsame₃ hf₃ hlength => ?_
  refine .checkInBounds (hr₂.later hf₃) hlength fun _ {s₄ c₄} hsame₄ hf₄ => ?_
  have hf₄ := hf₃.trans hf₄
  refine .value (loadField64_yieldsIn (hview₂.later hf₄) .typedArrayVector trivial)
    fun {_ _ c₅} hsame₅ hf₅ hvector => ?_
  have hf₅ := hf₄.trans hf₅
  rw [hf₄.memory] at hvector
  rw [← hf₅.memory] at hvector ⊢
  exact proceeds_loadTypedElement hx.found hform hread hx.integer
    (((hsame₃.trans hsame₄).trans hsame₅).armDepth.trans hreads₂.depth) hvector (hr₂.later hf₅) rfl

/-- What the code for the store of an int32 does. -/
def storeOutcome (mode : ArrayMode) (layout : ObjectLayout) (memory : Memory) (kind : ElementKind)
    (view : Word) (index v : Int32) :
    Except ExitKind (Unit → State → Config σ → Prop) :=
  if View.length layout memory view ≤ index.toUInt32 then
    if mode.speculation = .inBounds then .error .outOfBounds else .ok fun _ _ c => c.memory = memory
  else .ok fun _ _ c => c.memory = View.store layout memory kind view index v

set_option synthInstance.maxSize 4000 in
instance (e : Edge) (kind : ElementKind) : Tidy (typedStoreValue e kind) :=
  Staged.obeys inferInstance

set_option synthInstance.maxSize 1000 in
/-- The code that stores an int32 into an array of integers. -/
theorem putInteger_performs (hx : IntegerAccess m env kind view n id node mode base at_ s s' c)
    (hop : node.op = .putByVal mode) (hchildren : node.children = base :: at_ :: value :: rest)
    (huse : value.useKind = .int32 ∨ value.useKind = .knownInt32)
    (hv : IsInt32 env s c value.node k) :
    Performs m .univ s s' c (storeOutcome mode env.layout c.memory kind view n k) := by
  have hlower : lowerOp id node = lowerPutTypedElement node mode kind := by
    unfold lowerOp
    rw [hop]
    change lowerPutByVal node mode = _
    rw [lowerPutByVal, hx.typed]
  have hm := hx.completes
  have h := hx.lowered
  rw [hlower, lowerPutTypedElement] at h
  dsimp only at h
  obtain ⟨base', hbase, h⟩ := check_bind_ok h
  obtain rfl : base = base' := by simpa [Node.child, hchildren, Fault.ofOption] using hbase
  refine performs_asCell h hm hx.stands hx.cell hx.valid hx.depth
    fun {r₁ s₁ c₁} h hreads₁ _ _ hr₁ => ?_
  obtain ⟨at', hat, h⟩ := check_bind_ok h
  obtain rfl : at_ = at' := by simpa [Node.child, hchildren, Fault.ofOption] using hat
  refine performs_asInt32 h hm hreads₁.stands (hreads₁.int32 hx.index) hreads₁.valid hreads₁.depth
    fun {r₂ s₂ c₂} h hreads₂ hr₂ => ?_
  obtain ⟨value', hvalue, h⟩ := check_bind_ok h
  obtain rfl : value = value' := by simpa [Node.child, hchildren, Fault.ofOption] using hvalue
  have htyped : typedStoreValue value kind = (do
      let r ← asInt32 value
      if kind = .uint8Clamped then clampInt32 r else return r) := by
    rcases huse with huse | huse <;> simp [typedStoreValue, huse, hx.integer]
  rw [htyped, bind_assoc] at h
  refine performs_asInt32 h hm hreads₂.stands (hreads₂.int32 (hreads₁.int32 hv)) hreads₂.valid
    hreads₂.depth
    fun {r₃ s₃ c₃} h hreads₃ hr₃ => ?_
  have hmem : c₃.memory = c.memory :=
    (hreads₁.follows.trans (hreads₂.follows.trans hreads₃.follows)).memory
  refine Proceeds.performs ?_ hreads₃.stands h hm (Tidy.after h (.refl hreads₃.stands.wf))
  rw [← hmem]
  have hview₃ := hr₁.later (hreads₂.follows.trans hreads₃.follows)
  have hindex₃ := hr₂.later hreads₃.follows
  have hstored : YieldsIn m .univ env s₃.builder c₃ (if kind = .uint8Clamped then clampInt32 r₃
    else pure r₃ : Lower Reg) .i32
      (ofInt32 (kind.stored k)) := by
    by_cases hclamp : kind = .uint8Clamped
    · rw [if_pos hclamp, hclamp]
      exact (Yields.ofEmit (clampInt32_yields hr₃)).univ
    · rw [if_neg hclamp, ElementKind.stored, if_neg hclamp]
      exact .pure fun hf => ⟨_, hr₃.later hf, rfl, hf.memory⟩
  refine .value hstored fun {r₄ s₄ c₄} hsame₄ hf₄ hr₄ => ?_
  refine .value (loadField32_yieldsIn (hview₃.later hf₄) .typedArrayLength trivial)
    fun {r₅ s₅ c₅} hsame₅ hf₅ hlength => ?_
  have hr₅ := hr₄.later hf₅
  have hf₅ := hf₄.trans hf₅
  rw [hf₄.memory] at hlength
  change c₅.Has s₅.builder r₅ .i32 (View.length env.layout c₃.memory view).toUInt64 at hlength
  have hstore {s' : State} {c' : Config σ} (hf : c₅.Follows s₅.builder c' s'.builder) : Acts m .univ
    env s'.builder c' (do
      let vector ← loadField64 r₁ .typedArrayVector
      let address ← elementAddress vector r₂ kind.shift
      Emit.store kind.width r₄ address 0) fun _ _ c'' => c''.memory = View.store env.layout
        c₃.memory kind view n k := by
    have hf' := hf₅.trans hf
    refine YieldsIn.andThen (loadField64_yieldsIn (hview₃.later hf') .typedArrayVector trivial)
      fun hf₆ hvector => ?_
    rw [hf'.memory] at hvector
    refine YieldsIn.andThen
      (.ofEmit (elementAddress_yieldsIn hvector (hindex₃.later (hf'.trans hf₆)) (shift_lt kind)))
        fun hf₇ ha => ?_
    refine (store_acts (hr₅.later (hf.trans (hf₆.trans hf₇))) ha).mono fun hwritten =>
      hwritten.trans ?_
    rw [address_zero, bytes_width, encode_width hx.integer, (hf'.trans (hf₆.trans hf₇)).memory]
    rfl
  have hindex₅ := hindex₃.later hf₅
  unfold storeOutcome
  by_cases hin : mode.speculation = .inBounds
  · simp only [if_pos hin]
    refine .checkInBounds hindex₅ hlength fun _ {_ _} _ hf₆ => (hstore hf₆).proceeds
      fun _ _ _ hq => hq
  · simp only [if_neg hin]
    refine .value (.ofEmit (inBounds_yieldsIn hindex₅ hlength)) fun {_ s₆ c₆} _ hf₆ hcond => ?_
    by_cases hlt : n.toUInt32 < View.length env.layout c₃.memory view
    · rw [if_neg (UInt32.not_le.2 hlt)]
      refine Acts.proceeds (when_acts (R := (· = View.store env.layout c₃.memory kind view n k))
        hcond (fun _ => hstore hf₆)
        fun h => ?_) fun _ _ _ hq => hq
      rw [decide_eq_true hlt] at h
      cases h
    · rw [if_pos (UInt32.not_lt.1 hlt)]
      refine Acts.proceeds (when_acts (R := (· = c₃.memory)) hcond (fun h => ?_) fun _ =>
        (hf₅.trans hf₆).memory) fun _ _ _ hq => hq
      rw [decide_eq_false hlt] at h
      exact absurd rfl h

/-! ## A store, and a load after it -/

theorem convert_uint32_iff : 2 ^ 31 ≤ ElementKind.uint32.convert k ↔ k.toInt < 0 := by
  have hlow := k.le_toInt
  have hhigh := k.toInt_lt
  change 2 ^ 31 ≤ k.toInt % 4294967296 ↔ _
  omega

/-- An int32 that is stored into an array of integers is read back, converted to the kind of the
elements, if the element does not lie in the words where the array keeps its length and the address
of its elements. No other byte is changed, and none at all if the index is out of bounds. -/
theorem integer_read_back (hput : IntegerAccess m env kind view n id node mode base at_ s s' c)
    (hop : node.op = .putByVal mode) (hchildren : node.children = base :: at_ :: value :: rest)
    (huse : value.useKind = .int32 ∨ value.useKind = .knownInt32)
    (hv : IsInt32 env s c value.node k) :
    Performs m .univ s s' c (storeOutcome mode env.layout c.memory kind view n k) ∧
      c.memory.ChangedIn [(View.elementAddress env.layout c.memory kind view n, kind.size)]
        (View.store env.layout c.memory kind view n k) ∧
      ∀ {m' : Machine σ} {env' getId get getMode base' at' rest' form s₁ s₂ c₁},
      env'.layout = env.layout →
        IntegerAccess m' env' kind view n getId get getMode base' at' s₁ s₂ c₁ →
        get.op = .getByVal getMode →
        get.children = base' :: at' :: rest' → get.result.form? = some form →
        (form = .int32 ∨ form = .double ∨ form = .jsValue) →
        c₁.memory = View.store env.layout c.memory kind view n k → n.toUInt32 < View.length
          env.layout c.memory view →
        View.Apart env.layout c.memory kind view n →
        Performs m' .univ s₁ s₂ c₁ (if kind = .uint32 ∧ form = .int32 ∧ k.toInt < 0 then .error
          .overflow
          else .ok (HeldWord getId form c₁.memory (kind.wordAs form (kind.convert k)))) := by
  refine ⟨putInteger_performs hput hop hchildren huse hv, Memory.changedIn_write _ _ _ _, ?_⟩
  intro m' env' getId get getMode base' at' rest' form s₁ s₂ c₁ hlayout hget hgetOp hgetChildren
    hform hread hmemory hlength hapart
  have hloaded := getInteger_performs hget hgetOp hgetChildren hform hread
  have hoverflow : (kind = .uint32 ∧ form = .int32 ∧ 2 ^ 31 ≤ kind.convert k) ↔ kind = .uint32 ∧
    form = .int32 ∧ k.toInt < 0 := by
    refine and_congr_right fun hkind => and_congr_right fun _ => ?_
    rw [hkind, convert_uint32_iff]
  rw [View.load_map, hlayout, hmemory, View.length_store hapart, if_neg (UInt32.not_le.2 hlength),
    View.integer_store hput.integer hapart] at hloaded
  rw [hmemory]
  exact (congrArg _ (if_congr hoverflow rfl rfl)).mp hloaded

end

/-! ## 200 in an array of signed bytes -/

namespace SignedBytes

open TwoArguments

def arrayMode : ArrayMode := { arrayType := .typedArray .int8, speculation := .inBounds }

def put : Node where
  op := .putByVal arrayMode
  children := [{ node := ⟨0⟩, useKind := .cell }, { node := ⟨1⟩, useKind := .int32 },
    { node := ⟨1⟩, useKind := .int32 }]

def get : Node where
  op := .getByVal arrayMode
  result := .jsValue
  children := [{ node := ⟨0⟩, useKind := .cell }, { node := ⟨1⟩, useKind := .int32 }]

/-- An array of 256 elements. -/
def memory : Memory := (({} : Memory).write 0x5008 8 0x6000).write 0x5010 4 256

/-- Where the code of a node is entered: the array and 200 are the arguments. -/
def start (f : Function) (memory : Memory) : Config Unit :=
  { config f 0x5000 (Value.boxInt32 200) with memory }

theorem access {access : Node} {s' : State} {memory : Memory}
    (h : lowerOp ⟨2⟩ access (env (graph access .jsValue .jsValue))
      (before (graph access .jsValue .jsValue) .jsValue) = .ok ((), s'))
    (hsize : 3 < s'.builder.func.types.size)
    (hseen : Value.overlooked {} memory 0x5000 .cell = false)
    (hkind : ∃ known, (before (graph access .jsValue .jsValue) .jsValue).facts.factOf
      (graph access .jsValue .jsValue) ⟨0⟩ = .ok known ∧
      known.Describes (Value.kindOf {} memory 0x5000)) :
    IntegerAccess (Machine.plain s'.builder.func) (env (graph access .jsValue .jsValue)) .int8
      0x5000 200
      ⟨2⟩ access arrayMode
      { node := ⟨0⟩, useKind := .cell } { node := ⟨1⟩, useKind := .int32 }
        (before (graph access .jsValue .jsValue) .jsValue) s'
      (start s'.builder.func memory) where
  toEntered := entered h hsize (by decide) hseen hkind
  typed := rfl
  integer := rfl
  index := second_isInt32 hsize

end SignedBytes

/-- 200 comes back as -56. -/
theorem integer_read_back_signed : ∃ s₁ s₂,
    lowerOp ⟨2⟩ SignedBytes.put
      (TwoArguments.env (TwoArguments.graph SignedBytes.put .jsValue .jsValue))
        (TwoArguments.before (TwoArguments.graph SignedBytes.put .jsValue .jsValue) .jsValue)
        = .ok ((), s₁) ∧
      lowerOp ⟨2⟩ SignedBytes.get
        (TwoArguments.env (TwoArguments.graph SignedBytes.get .jsValue .jsValue))
        (TwoArguments.before (TwoArguments.graph SignedBytes.get .jsValue .jsValue) .jsValue)
        = .ok ((), s₂) ∧
      Performs (Machine.plain s₁.builder.func) .univ
        (TwoArguments.before (TwoArguments.graph SignedBytes.put .jsValue .jsValue) .jsValue) s₁
        (SignedBytes.start s₁.builder.func SignedBytes.memory)
        (.ok fun _ _ c => c.memory = SignedBytes.memory.write 0x60c8 1 200) ∧
      Performs (Machine.plain s₂.builder.func) .univ
        (TwoArguments.before (TwoArguments.graph SignedBytes.get .jsValue .jsValue) .jsValue) s₂
        (SignedBytes.start s₂.builder.func (SignedBytes.memory.write 0x60c8 1 200))
        (.ok (HeldWord ⟨2⟩ .jsValue (SignedBytes.memory.write 0x60c8 1 200) (Value.boxInt32 (-56))))
        := by
  have hput :
    ((lowerOp ⟨2⟩ SignedBytes.put
      (TwoArguments.env (TwoArguments.graph SignedBytes.put .jsValue .jsValue))
      (TwoArguments.before (TwoArguments.graph SignedBytes.put .jsValue .jsValue)
        .jsValue)).toOption.any fun r =>
        3 < r.2.builder.func.types.size) = true := by decide +kernel
  have hget :
    ((lowerOp ⟨2⟩ SignedBytes.get
      (TwoArguments.env (TwoArguments.graph SignedBytes.get .jsValue .jsValue))
      (TwoArguments.before (TwoArguments.graph SignedBytes.get .jsValue .jsValue)
        .jsValue)).toOption.any fun r =>
        3 < r.2.builder.func.types.size) = true := by decide +kernel
  obtain ⟨⟨⟨⟩, s₁⟩, h₁, hsize₁⟩ := ok_of_any hput
  obtain ⟨⟨⟨⟩, s₂⟩, h₂, hsize₂⟩ := ok_of_any hget
  rw [decide_eq_true_eq] at hsize₁ hsize₂
  have hentry : ∀ memory ∈ [SignedBytes.memory, SignedBytes.memory.write 0x60c8 1 200],
      Value.overlooked {} memory 0x5000 .cell = false ∧
      (Value.kindOf {} memory 0x5000).isEmpty = false ∧
        (Value.kindOf {} memory 0x5000).isSubsetOf
          (AbstractValue.ofType NodeResult.jsValue.typeBound).ty = true := by decide +kernel
  obtain ⟨hseen₁, hkind₁⟩ := hentry SignedBytes.memory (by simp)
  obtain ⟨hseen₂, hkind₂⟩ := hentry (SignedBytes.memory.write 0x60c8 1 200) (by simp)
  obtain ⟨hputs, -, hgets⟩ := integer_read_back
    (SignedBytes.access h₁ hsize₁ hseen₁ ⟨_, rfl, hkind₁.1, hkind₁.2, nofun⟩) rfl rfl (.inl rfl)
      (TwoArguments.second_isInt32 hsize₁)
  have haddress : View.elementAddress {} SignedBytes.memory .int8 0x5000 200 = 0x60c8 := by
    decide +kernel
  have hlength : View.length {} SignedBytes.memory 0x5000 = 256 := by decide +kernel
  have hstore : View.store {} SignedBytes.memory .int8 0x5000 200 200 = SignedBytes.memory.write
    0x60c8 1 200 := by
    rw [View.store, haddress]
    rfl
  have hin : (200 : Int32).toUInt32 < View.length {} SignedBytes.memory 0x5000 := by
    rw [hlength]
    decide
  have hapart : View.Apart {} SignedBytes.memory .int8 0x5000 200 := by
    constructor <;> rw [haddress] <;> constructor <;> decide
  refine ⟨s₁, s₂, h₁, h₂, ?_, ?_⟩
  · rw [← hstore]
    exact (congrArg _ (if_neg (UInt32.not_le.2 hin))).mp hputs
  · refine hgets ?_ (SignedBytes.access h₂ hsize₂ hseen₂ ⟨_, rfl, hkind₂.1, hkind₂.2, nofun⟩) rfl
      rfl rfl (.inr (.inr rfl))
      hstore.symm hin hapart
    rfl

/-! ## An element that lies in its array

Bytes of the element that lie in the words where the array keeps its length or the address of its
elements are changed by the store, and the load looks for the element somewhere else. -/

/-- Stores 7 into the first element of an array of int32 elements and loads it. -/
def storedAndLoaded : Graph where
  name := "storedAndLoaded"
  nodes := #[
    { op := .getStack { operand := .arg 1, slot := .arg 1, format := .jsValue },
      result := .jsValue },
    { op := .jsConstant (.int32 0), result := .jsValue },
    { op := .jsConstant (.int32 7), result := .jsValue },
    { op := .putByVal { arrayType := .typedArray .int32, speculation := .inBounds }
      children := [{ node := ⟨0⟩, useKind := .cell }, { node := ⟨1⟩, useKind := .int32 },
        { node := ⟨2⟩, useKind := .int32 }] },
    { op := .getByVal { arrayType := .typedArray .int32, speculation := .inBounds },
      result := .jsValue
      children := [{ node := ⟨0⟩, useKind := .cell }, { node := ⟨1⟩, useKind := .int32 }] },
    { op := .ret, children := [{ node := ⟨4⟩ }] }]
  blocks := #[{ index := ⟨0⟩, nodes := #[⟨0⟩, ⟨1⟩, ⟨2⟩, ⟨3⟩, ⟨4⟩, ⟨5⟩] }]
  numArguments := 2
  numLocals := 0

/-- The argument is an array of one element, which lies where the array says where its elements are.
-/
def memoryOfOverlap : Memory :=
  ((Simulation.FrameValues.memory { arguments := [0x5000] }).write 0x5008 8 0x5008).write 0x5010 4 1

/-- The store moves the elements, so that the load reads another place. -/
theorem storedAndLoaded_returns_zero : storedAndLoaded.canCompile.isOk = true ∧
    0 < View.length {} memoryOfOverlap 0x5000 ∧
    View.elementAddress {} memoryOfOverlap .int32 0x5000 0 = 0x5008 ∧
    ElementKind.int32.wordAs .jsValue (ElementKind.int32.convert 7) = Value.boxInt32 7 ∧
    simulated storedAndLoaded memoryOfOverlap = some (.returned (Value.boxInt32 0)) := by
  decide +kernel

end Lowering

end SpecJit
