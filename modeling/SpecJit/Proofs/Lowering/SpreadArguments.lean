import SpecJit.Proofs.Lowering.Arithmetic
import SpecJit.Proofs.Lowering.DeadEnds
import SpecJit.Proofs.Lowering.Proceeding
import SpecJit.Proofs.Lowering.RoundTrip

/-!
# Arguments that are copied within the frame

The arguments of a frame lie above its header, one above the other; the place that they are copied
to lies among the locals, one below the other. The code leaves if there are too many of them.
Otherwise it stores their number, copies them one by one, and puts `undefined` in the places that
are needed and got none (`forwardVarargs_outcome`).
-/

namespace SpecJit

open Lir

namespace Frame

/-- The slot of a variable, whose index is taken as it is. -/
def place : Operand → Int
  | .arg i => headerSlots + i
  | .loc i => -1 - i

/-- The address of a slot. -/
def address (frame : Word) (slot : Int) : Word := displace frame (8 * slot)

/-- How many arguments the frame has from `offset` on, `this` not counted. -/
def argumentsFrom (memory : Memory) (frame : Word) (offset : Nat) : Nat :=
  (memory.read (address frame argumentCountSlot) 4).toNat - 1 - offset

/-- Where the `i`-th argument from `offset` on is. -/
def source (frame : Word) (offset i : Nat) : Word := address frame (place (.arg (1 + offset + i)))

/-- Where the `i`-th argument is copied to. -/
def target (frame : Word) (start i : Nat) : Word := address frame (place (.loc (start + i)))

theorem place_arg_add (k i : Nat) :
    8 * place (.arg k) + 8 * (i : Int) = 8 * place (.arg (k + i)) := by
  simp only [place]
  omega

theorem place_loc_add (k i : Nat) :
    8 * place (.loc k) + -(8 * (i : Int)) = 8 * place (.loc (k + i)) := by
  simp only [place]
  omega

/-- A variable whose slot is where its index says. -/
def InReach (v : Operand) : Prop := slot v = .ok (place v)

theorem argumentsFrom_lt (memory : Memory) (frame : Word) (offset : Nat) :
    argumentsFrom memory frame offset + 1 < 2 ^ 32 := by
  have := memory.read_lt (address frame argumentCountSlot) (n := 4) (by omega)
  unfold argumentsFrom
  omega

theorem ofIndex_of_lt {i : Nat} (h : i < 2 ^ 31) : Offset.ofIndex i = i :=
  Int.bmod_eq_of_le (by omega) (by omega)

theorem lt_of_ofIndex {i : Nat} (h : Offset.ofIndex i = i) : i < 2 ^ 31 := by
  have hlt : Offset.ofIndex i < (0x100000000 + 1) / 2 := Int.bmod_lt (by decide)
  omega

theorem InReach.arg_lt {i : Nat} (h : InReach (.arg i)) : i < 2 ^ 31 := by
  obtain ⟨-, heq⟩ := Lowering.checkI32_ok h
  refine lt_of_ofIndex ?_
  simp only [place] at heq
  omega

theorem InReach.loc_lt {i : Nat} (h : InReach (.loc i)) : i < 2 ^ 31 := by
  have heq := Except.ok.inj h
  refine lt_of_ofIndex ?_
  simp only [place] at heq
  omega

theorem inReach_arg {i : Nat} (h : headerSlots + i < 2 ^ 31) : InReach (.arg i) := by
  have hheader : headerSlots = 3 := rfl
  unfold InReach slot place Fault.checkI32
  simp only [ofIndex_of_lt (i := i) (by omega)]
  rw [if_pos (by omega)]

theorem inReach_loc {i : Nat} (h : i < 2 ^ 31) : InReach (.loc i) := by
  unfold InReach slot place
  simp only [ofIndex_of_lt h]

theorem InReach.place_bounds {v : Operand} (h : InReach v) :
    -2 ^ 33 < place v ∧ place v < 2 ^ 33 := by
  have hheader : (headerSlots : Int) = 3 := rfl
  cases v with
  | arg i =>
    have := h.arg_lt
    simp only [place]
    omega
  | loc i =>
    have := h.loc_lt
    simp only [place]
    omega

/-- Different variables are in different slots: arguments above the frame, locals below. -/
theorem place_ne {v v' : Operand} (h : v ≠ v') : place v ≠ place v' := by
  cases v <;> cases v' <;> simp only [place, ne_eq, Operand.arg.injEq, Operand.loc.injEq] at h ⊢ <;>
    omega

theorem InReach.offset_ok {v : Operand} {k : Int} (hv : InReach v) (h : offset v = .ok k) :
    k = 8 * place v ∧ -0x80000000 ≤ k ∧ k < 0x80000000 := by
  rw [offset, hv] at h
  obtain ⟨hrange, rfl⟩ := Lowering.checkI32_ok h
  exact ⟨rfl, hrange⟩

/-- Slots are apart from each other. -/
theorem address_apart (frame : Word) {j k : Int} {n l : Nat} (h : j ≠ k)
    (hj : -2 ^ 33 < j ∧ j < 2 ^ 33) (hk : -2 ^ 33 < k ∧ k < 2 ^ 33) (hn : 0 < n ∧ n ≤ 8)
    (hl : 0 < l ∧ l ≤ 8) :
    Memory.Apart (address frame j) n (address frame k) l :=
  Memory.apart_displace frame (by omega) (by omega) (by omega) hn.1 hl.1

theorem InReach.apart {v v' : Operand} (hv : InReach v) (hv' : InReach v') (hne : v ≠ v')
    (frame : Word) {n l : Nat} (hn : 0 < n ∧ n ≤ 8) (hl : 0 < l ∧ l ≤ 8) :
    Memory.Apart (address frame (place v)) n (address frame (place v')) l :=
  address_apart frame (place_ne hne) hv.place_bounds hv'.place_bounds hn hl

/-! ## What is copied -/

/-- The first `k` places below `start` have the arguments, `n` in all, and `undefined` where
`minimum` asks for it; nothing else is different from `before`. -/
structure CopiedTo (frame : Word) (start offset n minimum : Nat) (before : Memory) (k : Nat)
    (after : Memory) : Prop where
  copied : ∀ i < k, i < n → after.read (target frame start i) 8 = before.read
    (source frame offset i) 8
  padded : ∀ i < k, n ≤ i → i < minimum → after.read (target frame start i) 8 = Value.undefined
  kept : before.ChangedIn ((List.range (max n minimum)).map fun i => (target frame start i, 8))
    after

variable {frame : Word} {start offset n minimum k : Nat} {before after : Memory} {w : Word}

theorem CopiedTo.none (frame : Word) (start offset n minimum : Nat) (memory : Memory) :
    CopiedTo frame start offset n minimum memory 0 memory :=
  ⟨nofun, nofun, .refl _ _⟩

/-- What is kept of an argument: where arguments are copied to is below the frame. -/
theorem CopiedTo.source (h : CopiedTo frame start offset n minimum before k after)
    (htarget : ∀ i < max n minimum, start + i < 2 ^ 31) {i : Nat}
    (hsource : 1 + offset + i < 2 ^ 31) :
    after.read (source frame offset i) 8 = before.read (Frame.source frame offset i) 8 := by
  refine h.kept.read fun r hr => ?_
  obtain ⟨j, hj, rfl⟩ := List.mem_map.1 hr
  have := htarget j (List.mem_range.1 hj)
  have hheader : (headerSlots : Int) = 3 := rfl
  exact address_apart frame (by simp only [place]; omega) (by simp only [place]; omega)
    (by simp only [place]; omega)
    (by omega) (by omega)

/-- One more place is written. -/
theorem CopiedTo.write (h : CopiedTo frame start offset n minimum before k after)
    (hk : k < max n minimum) (htarget : start + k < 2 ^ 31)
    (hcopied : k < n → w = before.read (Frame.source frame offset k) 8)
    (hpadded : n ≤ k → w = Value.undefined) :
    CopiedTo frame start offset n minimum before (k + 1) (after.write (target frame start k) 8
      w) := by
  have hself : (after.write (target frame start k) 8 w).read (target frame start k) 8 = w := by
    have hlt := w.toNat_lt
    rw [← UInt64.toNat_inj, Memory.read_write_self (by omega), Nat.mod_eq_of_lt (by omega)]
  have hother {i : Nat} (hi : i < k) :
      (after.write (target frame start k) 8 w).read (target frame start i) 8 = after.read
        (target frame start i) 8 :=
    Memory.read_write_apart (address_apart frame (by simp only [place]; omega)
      (by simp only [place]; omega)
      (by simp only [place]; omega) (by omega) (by omega))
  refine ⟨fun i hi hn => ?_, fun i hi hn hmin => ?_,
    h.kept.trans ((Memory.changedIn_write _ _ _ _).widen fun r hr => ?_)⟩
  · rcases Nat.lt_succ_iff_lt_or_eq.1 hi with hlt | rfl
    · rw [hother hlt, h.copied i hlt hn]
    · rw [hself, hcopied hn]
  · rcases Nat.lt_succ_iff_lt_or_eq.1 hi with hlt | rfl
    · rw [hother hlt, h.padded i hlt hn hmin]
    · rw [hself, hpadded hn]
  · exact List.mem_singleton.1 hr ▸ List.mem_map.2 ⟨k, List.mem_range.2 hk, rfl⟩

/-- A place that nothing is put into. -/
theorem CopiedTo.skip (h : CopiedTo frame start offset n minimum before k after) (hn : n ≤ k)
    (hmin : minimum ≤ k) :
    CopiedTo frame start offset n minimum before (k + 1) after :=
  ⟨fun i _ hi => h.copied i (by omega) hi, fun i _ hi hi' => h.padded i (by omega) hi hi', h.kept⟩

end Frame

/-- The data of a node that finds `n` arguments to copy: its slots are in reach, and the number of
arguments is stored neither in the place that they are copied to nor in that of an argument that is
copied. -/
structure LoadVarargsData.Fits (data : LoadVarargsData) (start n : Nat) : Prop where
  local_eq : data.start = .loc start
  first : Frame.InReach data.start
  count : Frame.InReach data.count
  targets : ∀ i < max data.limit data.mandatoryMinimum, Frame.InReach (.loc (start + i))
  sources : ∀ i < min n data.limit, Frame.InReach (.arg (1 + data.offset + i))
  limit : data.limit < 2 ^ 32
  offset : data.offset < 2 ^ 32
  outside : ∀ i < max data.limit data.mandatoryMinimum, data.count ≠ .loc (start + i)
  kept : ∀ i < min n data.limit, data.count ≠ .arg (1 + data.offset + i)

/-- What the code leaves in memory: the number of arguments with `this`, the arguments, and
`undefined` in the places that are needed and got none. Nothing else is different. -/
structure LoadVarargsData.Forwarded (data : LoadVarargsData) (frame : Word) (start n : Nat)
    (before after : Memory) : Prop where
  count : (after.read (Frame.address frame (Frame.place data.count)) 4).toNat = n + 1
  copied : ∀ i < n, after.read (Frame.target frame start i) 8 = before.read
    (Frame.source frame data.offset i) 8
  padded : ∀ i, n ≤ i → i < data.mandatoryMinimum → after.read (Frame.target frame start i)
    8 = Value.undefined
  kept : before.ChangedIn ((Frame.address frame (Frame.place data.count), 4) ::
    (List.range (max n data.mandatoryMinimum)).map fun i => (Frame.target frame start i, 8)) after

namespace Lowering

section

variable {σ : Type} {m : Machine σ} {b : Builder} {c : Config σ} {env : Env} {s s' : State}
  {u : Unit} {id : NodeId} {node : Node} {data : LoadVarargsData} {v : Operand} {dest length : Reg}
  {p d : Word} {start offset minimum n i : Nat} {first : Int} {before : Memory} {kind : ExitKind}

/-! ## How many arguments there are -/

theorem toInt_ofInt {k : Int} (h : -2 ^ 63 ≤ k) (h' : k < 2 ^ 63) :
    (UInt64.ofInt k).toInt64.toInt = k := by
  rw [← toUInt64_ofInt, Int64.toInt64_toUInt64]
  exact Int64.toInt_ofInt_of_le h (by omega)

/-- A difference below zero counts as none. -/
theorem clamped_eq {argc offset : Nat} (hargc : argc < 2 ^ 32) (hoffset : offset < 2 ^ 32) :
    (if (ofBool (IntCC.slt.eval .i64 (UInt64.ofInt (argc + (-1 - offset))) 0)).toUInt32 ≠ 0 then 0
      else UInt64.ofInt (argc + (-1 - offset))) = UInt64.ofNat (argc - 1 - offset) := by
  have hvalue := toInt_ofInt (k := argc + (-1 - offset)) (by omega) (by omega)
  have htest : IntCC.slt.eval .i64 (UInt64.ofInt (argc + (-1 - offset))) 0 = decide
    ((argc : Int) + (-1 - offset) < 0) := by
    simp only [IntCC.eval, IntCC.holds, hvalue]
    rfl
  rw [htest]
  by_cases hneg : (argc : Int) + (-1 - offset) < 0
  · rw [decide_eq_true hneg, if_pos (by decide), show argc - 1 - offset = 0 by omega]
    rfl
  · rw [decide_eq_false hneg, if_neg (by decide),
      show (argc : Int) + (-1 - offset) = (argc - 1 - offset : Nat) by omega, ← UInt64.toNat_inj,
      toNat_ofInt, UInt64.toNat_ofNat']
    omega

/-- The count of the frame, widened, and a number added to it. -/
theorem widened_add {w : Word} (h : w.toNat < 2 ^ 32) (k : Int) :
    Ty.i64.normalize
      (BinaryOp.add.eval .i64 (extend false (Ty.i32.normalize (MemWidth.w32.decode false w)))
      (Ty.i64.normalize (Int64.ofInt k).toUInt64)) = UInt64.ofInt (w.toNat + k) := by
  have hwide : w.toUInt32.toUInt64 = w := by
    rw [← UInt64.toNat_inj, UInt32.toNat_toUInt64, UInt64.toNat_toUInt32, Nat.mod_eq_of_lt h]
  have hnat : UInt64.ofInt (w.toNat : Int) = w := by
    rw [← UInt64.toNat_inj, toNat_ofInt]
    omega
  have hextend : extend false (Ty.i32.normalize (MemWidth.w32.decode false w)) = w := by
    simp only [extend, Ty.normalize, MemWidth.decode, hwide, Bool.false_eq_true, if_false]
  rw [hextend, UInt64.ofInt_add, hnat, Ty.normalize_i64, BinaryOp.add_eval, toUInt64_ofInt]
  rfl

theorem forwardedLength_yieldsIn (hframe : c.Has b env.frame .i64 p) (hoffset : offset < 2 ^ 32) :
    YieldsIn m .univ env b c (forwardedLength offset) .i64
      (UInt64.ofNat (Frame.argumentsFrom c.memory p offset)) := by
  have hargc := c.memory.read_lt (Frame.address p Frame.argumentCountSlot) (n := 4) (by omega)
  refine .ofRead (YieldsIn.andThen (.ofEmit (Emit.load_yieldsIn hframe trivial))
    fun hf₁ hcount => ?_)
  refine YieldsIn.andThen (.ofEmit (Emit.zeroExtend_yieldsIn hcount)) fun hf₂ hwide => ?_
  refine YieldsIn.andThen (.ofEmit (Emit.binaryImm_yieldsIn hwide)) fun hf₃ havailable => ?_
  refine YieldsIn.andThen (.ofEmit (Emit.icmpImm_yieldsIn havailable)) fun hf₄ hnegative => ?_
  refine YieldsIn.andThen (.ofEmit (Emit.iconst_yieldsIn 0)) fun hf₅ hzero => ?_
  have hselect := Emit.select_yieldsIn (m := m) (L := .univ) (hnegative.later hf₅) hzero
    (havailable.later (hf₄.trans hf₅))
  refine (YieldsIn.ofEmit hselect).inRegister
    ⟨?_, (hf₁.trans (hf₂.trans (hf₃.trans (hf₄.trans hf₅)))).memory⟩
  have haddress : Machine.address p (Int32.ofInt (8 * Frame.argumentCountSlot)) = Frame.address p
    Frame.argumentCountSlot :=
    Machine.address_ofInt p (by decide) (by decide)
  rw [haddress, show MemWidth.w32.bytes = 4 from rfl, widened_add hargc]
  exact clamped_eq hargc hoffset

/-! ## The number of arguments is stored -/

theorem frameOffset_acts {α : Type} {f : Int → Lower α} {L : Set Word}
    {Q : α → Builder → Config σ → Prop} (hv : Frame.InReach v)
    (hf : -0x80000000 ≤ 8 * Frame.place v → 8 * Frame.place v < 0x80000000 →
      Acts m L env b c (f (8 * Frame.place v)) Q) :
    Acts m L env b c (liftM (Frame.offset v) >>= f) Q := by
  refine .ofCheck fun hoffset => ?_
  obtain ⟨rfl, hlow, hhigh⟩ := hv.offset_ok hoffset
  exact hf hlow hhigh

/-- The number of arguments with `this`, in 32 bits. -/
theorem countWord_eq (hn : n + 1 < 2 ^ 32) :
    Ty.i32.normalize (BinaryOp.add.eval .i32 (UInt64.ofNat n).toUInt32.toUInt64
      (Ty.i32.normalize (Int64.ofInt 1).toUInt64)) =
      UInt64.ofNat (n + 1) := by
  have hsum : BinaryOp.add.eval .i32 (UInt64.ofNat n).toUInt32.toUInt64
    (Ty.i32.normalize (Int64.ofInt 1).toUInt64) =
      ((UInt64.ofNat n).toUInt32 + 1).toUInt64 := by
    have hone : Ty.i32.normalize (Int64.ofInt 1).toUInt64 = 1 := by decide
    rw [hone]
    simp only [BinaryOp.eval, binary32, low32, ofInt32, Int32.toUInt32_add, UInt32.toUInt32_toInt32,
      UInt32.toUInt32_toUInt64]
    rfl
  rw [hsum, Ty.normalize, UInt32.toUInt32_toUInt64, ← UInt64.toNat_inj, UInt32.toNat_toUInt64,
    UInt32.toNat_add, UInt64.toNat_toUInt32, UInt64.toNat_ofNat', UInt64.toNat_ofNat',
    show (1 : UInt32).toNat = 1 from rfl]
  omega

theorem storeCount_acts (hframe : c.Has b env.frame .i64 p)
    (hlength : c.Has b length .i64 (UInt64.ofNat n)) (hn : n + 1 < 2 ^ 32) (hv : Frame.InReach v) :
    Acts m .univ env b c (storeCount v length) fun _ _ c' =>
      c'.memory = c.memory.write (Frame.address p (Frame.place v)) 4 (UInt64.ofNat (n + 1)) := by
  refine YieldsIn.andThen (.ofEmit (Emit.truncate_yieldsIn hlength)) fun hf₁ hlow => ?_
  refine YieldsIn.andThen (.ofEmit (Emit.binaryImm_yieldsIn hlow)) fun hf₂ hcount => ?_
  refine .ofRead (frameOffset_acts hv fun hlow hhigh => ?_)
  refine (store_acts hcount (hframe.later (hf₁.trans hf₂))).mono fun hstore => ?_
  rw [hstore, countWord_eq hn, Machine.address_ofInt p hlow hhigh, (hf₁.trans hf₂).memory]
  rfl

theorem frameAddress_yieldsIn (hframe : c.Has b env.frame .i64 p) (hv : Frame.InReach v) :
    YieldsIn m .univ env b c (frameAddress v) .i64 (Frame.address p (Frame.place v)) := by
  refine frameOffset_acts hv fun _ _ =>
    .ofRead ((YieldsIn.ofEmit (Emit.binaryImm_yieldsIn hframe)).inRegister ⟨?_, rfl⟩)
  rw [Ty.normalize_i64, Ty.normalize_i64, BinaryOp.add_eval, toUInt64_ofInt]
  rfl

/-! ## The arguments are copied -/

theorem present_eval {i : Nat} (hn : n < 2 ^ 32) (hi : i < 2 ^ 32) :
    IntCC.ugt.eval .i64 (UInt64.ofNat n) (Ty.i64.normalize (Int64.ofInt i).toUInt64) = decide
      (i < n) := by
  have hword : (Int64.ofInt i).toUInt64.toNat = i := by
    rw [toUInt64_ofInt, toNat_ofInt]
    omega
  simp only [IntCC.eval, IntCC.holds, Ty.normalize_i64, hword, UInt64.toNat_ofNat',
    Nat.mod_eq_of_lt (show n < 2 ^ 64 by omega)]

/-- An argument is loaded from its place. -/
theorem loadArgument_yieldsIn (hframe : c.Has b env.frame .i64 p)
    (hfirst : first = 8 * Frame.place (.arg (1 + offset)))
    (hlow : -0x80000000 ≤ first + 8 * (i : Int)) (hhigh : first + 8 * (i : Int) < 0x80000000) :
    (Emit.load64 env.frame (first + 8 * (i : Int))).YieldsIn m .univ b c .i64
      (c.memory.read (Frame.source p offset i) 8) := by
  refine (Emit.load_yieldsIn (L := .univ) hframe trivial).congr ?_
  rw [Machine.address_ofInt _ hlow hhigh, hfirst, Frame.place_arg_add]
  rfl

/-- A word is put into the place of an argument. -/
theorem storeArgument_acts {value : Reg} {w : Word}
    (hdest : c.Has b dest .i64 (Frame.address p (Frame.place (.loc start))))
    (hvalue : c.Has b value .i64 w) (hhigh : 8 * (i : Int) < 0x80000000) :
    Acts m .univ env b c (liftM (Emit.store64 value dest (-(8 * (i : Int))))) fun _ _ c' =>
      c'.memory = c.memory.write (Frame.target p start i) 8 w := by
  refine (store_acts hvalue hdest).mono fun hwritten => ?_
  rw [hwritten, Machine.address_ofInt _ (by omega) (by omega), Frame.address, displace_displace,
    Frame.place_loc_add]
  rfl

/-- One turn of the loop. -/
theorem copyFrameArgument_acts
    (hdest : c.Has b dest .i64 (Frame.address p (Frame.place (.loc start))))
    (hlength : c.Has b length .i64 (UInt64.ofNat n)) (hframe : c.Has b env.frame .i64 p)
    (hn : n < 2 ^ 32) (hi : start + i < 2 ^ 31)
    (hsource : i < n → first = 8 * Frame.place (.arg (1 + offset)) ∧ 1 + offset + i < 2 ^ 31)
    (htargets : ∀ i < max n minimum, start + i < 2 ^ 31)
    (h : Frame.CopiedTo p start offset n minimum before i c.memory) :
    Acts m .univ env b c (copyFrameArgument dest length first minimum i) fun _ _ c' =>
      Frame.CopiedTo p start offset n minimum before (i + 1) c'.memory := by
  refine YieldsIn.andThen (.ofEmit (Emit.icmpImm_yieldsIn hlength)) fun {r₁ b₁ c₁} hf₁ hpresent =>
    ?_
  rw [present_eval hn (by omega)] at hpresent
  have htaken : (ofBool (decide (i < n))).toUInt32 ≠ 0 ↔ i < n := by
    by_cases hin : i < n <;> simp [hin, ofBool]
  refine .ofRead (.ofCheckI32 fun _ hhigh => .ofCheckI32 fun hlow' hhigh' => ?_)
  rw [Frame.ofIndex_of_lt (by omega)] at hhigh hlow' hhigh' ⊢
  have hload (hin : i < n) : (Emit.load64 env.frame (first + 8 * (i : Int))).YieldsIn m .univ b₁ c₁
    .i64
      (before.read (Frame.source p offset i) 8) := by
    refine (loadArgument_yieldsIn (hframe.later hf₁) (hsource hin).1 hlow' hhigh').congr ?_
    rw [hf₁.memory, h.source htargets (hsource hin).2]
  have hstore {b' : Builder} {c' : Config σ} {value : Reg} {w : Word} (hext : b.Extends b')
    (hregs : c.Retains b c')
      (hvalue : c'.Has b' value .i64 w) (hmem : c'.memory = c.memory) (hk : i < max n minimum)
      (hcopied : i < n → w = before.read (Frame.source p offset i) 8) (hpadded : n ≤ i →
        w = Value.undefined) :
      Acts m .univ env b' c' (liftM (Emit.store64 value dest (-(8 * (i : Int))))) fun _ _ c'' =>
        Frame.CopiedTo p start offset n minimum before (i + 1) c''.memory := by
    refine (storeArgument_acts (hdest.retain hext hregs) hvalue hhigh).mono fun hwritten => ?_
    rw [hwritten, hmem]
    exact h.write hk hi hcopied hpadded
  by_cases hmin : i < minimum
  · rw [if_pos hmin]
    let R (w : Word) (memory : Memory) : Prop :=
      memory = c.memory ∧ (i < n → w = before.read (Frame.source p offset i) 8) ∧
        (n ≤ i → w = Value.undefined)
    refine .bind (diamond_acts hpresent (R := R) (fun hin => ?_) fun hout => ?_)
      fun hext hregs ⟨w, hw, hmem, hcopied, hpadded⟩ => ?_
    · have hin := htaken.1 hin
      exact (YieldsIn.ofEmit (hload hin)).inRegister ⟨hf₁.memory, fun _ => rfl, fun hle => by omega⟩
    · have hout : ¬ i < n := fun hin => absurd hout (htaken.2 hin)
      exact (YieldsIn.ofEmit (Emit.word_yieldsIn _)).inRegister ⟨hf₁.memory,
        fun hin => absurd hin hout, fun _ => rfl⟩
    · exact hstore (hf₁.grown.trans hext) (hf₁.keeps.retains.trans hregs hf₁.grown) hw hmem
        (by omega) hcopied hpadded
  · rw [if_neg hmin]
    refine when_acts (R := fun memory => Frame.CopiedTo p start offset n minimum before (i + 1)
      memory) hpresent (fun hin => ?_)
      fun hout => ?_
    · have hin := htaken.1 hin
      refine YieldsIn.andThen (.ofEmit (hload hin)) fun hf₂ hvalue => ?_
      have hf := hf₁.trans hf₂
      exact hstore hf.grown hf.keeps.retains hvalue hf.memory (by omega) (fun _ => rfl)
        fun hle => by omega
    · have hout : ¬ i < n := fun hin => absurd hout (htaken.2 hin)
      rw [hf₁.memory]
      exact h.skip (by omega) (by omega)

/-- The loop as a whole. -/
theorem copyFrameArguments_acts {slots : Nat}
    (hdest : c.Has b dest .i64 (Frame.address p (Frame.place (.loc start))))
    (hlength : c.Has b length .i64 (UInt64.ofNat n)) (hframe : c.Has b env.frame .i64 p)
    (hn : n < 2 ^ 32) (htargets : ∀ i < max slots minimum, Frame.InReach (.loc (start + i)))
    (hsources : ∀ i < n, Frame.InReach (.arg (1 + offset + i))) (hslots : n ≤ slots) :
    Acts m .univ env b c (copyFrameArguments dest offset length slots minimum) fun _ _ c' =>
      Frame.CopiedTo p start offset n minimum c.memory (max slots minimum) c'.memory := by
  refine .ofCheckI32 fun _ _ => .ofCheckI32 fun _ _ => ?_
  have hreach (i : Nat) (hi : i < max slots minimum) : start + i < 2 ^ 31 := (htargets i hi).loc_lt
  refine forM_acts (I := Frame.CopiedTo p start offset n minimum c.memory) (.none ..)
    fun i hi {b' c'} hext hregs h => ?_
  refine copyFrameArgument_acts (hdest.retain hext hregs) (hlength.retain hext hregs)
    (hframe.retain hext hregs) hn (hreach i hi)
    (fun hin => ?_) (fun j hj => hreach j (by omega)) h
  have hlt := (hsources i hin).arg_lt
  refine ⟨?_, hlt⟩
  rw [Frame.ofIndex_of_lt (by omega)]
  simp only [Frame.place]
  omega

/-- What is forwarded is right if the count was stored first. -/
theorem forwarded_of_copiedTo {memory after : Memory} (hfits : data.Fits start n)
    (hn : n + 1 < 2 ^ 32) (hlimit : n ≤ data.limit)
    (h : Frame.CopiedTo p start data.offset n data.mandatoryMinimum
      (memory.write (Frame.address p (Frame.place data.count)) 4 (UInt64.ofNat (n + 1)))
      (max data.limit data.mandatoryMinimum) after) :
    data.Forwarded p start n memory after := by
  have hmin : min n data.limit = n := by omega
  have hword : (UInt64.ofNat (n + 1)).toNat = n + 1 := by
    rw [UInt64.toNat_ofNat']
    omega
  refine ⟨?_, fun i hi => ?_, fun i hi hi' => h.padded i (by omega) hi hi', ?_⟩
  · rw [h.kept.read fun r hr => ?_, Memory.read_write_self (by omega), hword]
    · omega
    · obtain ⟨i, hi, rfl⟩ := List.mem_map.1 hr
      have hlt : i < max data.limit data.mandatoryMinimum := by
        have := List.mem_range.1 hi
        omega
      exact (hfits.targets i hlt).apart hfits.count (hfits.outside i hlt).symm p (by omega)
        (by omega)
  · rw [h.copied i (by omega) hi]
    exact Memory.read_write_apart (hfits.count.apart (hfits.sources i (by omega))
      (hfits.kept i (by omega)) p (by omega) (by omega))
  · refine ((Memory.changedIn_write _ _ _ _).widen fun r hr => ?_).trans
      (h.kept.widen fun r hr => .tail _ hr)
    exact List.mem_singleton.1 hr ▸ List.mem_cons_self

/-- With few enough arguments their number is stored, and they are copied. -/
theorem forwardFew_proceeds (hframe : c.Has s.builder env.frame .i64 p)
    (hlength : c.Has s.builder length .i64 (UInt64.ofNat n)) (hn : n + 1 < 2 ^ 32)
    (hfits : data.Fits start n) (hlimit : n ≤ data.limit) :
    Proceeds m .univ env s c (do
      storeCount data.count length
      let dest ← spreadDestination data.start
      copyFrameArguments dest data.offset length data.limit data.mandatoryMinimum)
      (.ok fun _ _ c' => data.Forwarded p start n c.memory c'.memory) := by
  have hstart := hfits.first
  refine .act (storeCount_acts hframe hlength hn hfits.count) fun {u s₁ c₁} _ hext₁ hregs₁ hcount =>
    ?_
  rw [hfits.local_eq] at hstart ⊢
  refine .value (frameAddress_yieldsIn (hframe.retain hext₁ hregs₁) hstart)
    fun {dest s₂ c₂} _ hf₂ hdest => ?_
  have hcopied := copyFrameArguments_acts (m := m) hdest ((hlength.retain hext₁ hregs₁).later hf₂)
    ((hframe.retain hext₁ hregs₁).later hf₂) (by omega) hfits.targets
      (fun i hi => hfits.sources i (by omega)) hlimit
  refine hcopied.proceeds fun _ _ _ hmemory => ?_
  rw [hf₂.memory, hcount] at hmemory
  exact forwarded_of_copiedTo hfits hn hlimit hmemory

theorem forwardVarargs_proceeds (hframe : c.Has s.builder env.frame .i64 p)
    (hn : Frame.argumentsFrom c.memory p data.offset = n) (hfits : data.Fits start n) :
    Proceeds m .univ env s c (lowerForwardVarargs data)
      (if data.limit < n then .error .varargsOverflow
      else .ok fun _ _ c' => data.Forwarded p start n c.memory c'.memory) := by
  have hlt := Frame.argumentsFrom_lt c.memory p data.offset
  rw [hn] at hlt
  refine .value (forwardedLength_yieldsIn hframe hfits.offset) fun {length s₁ c₁} _ hf₁ hlength =>
    ?_
  rw [hn] at hlength
  rw [checkSpreadLimit, bind_assoc]
  refine .value (.ofEmit (Emit.icmpImm_yieldsIn hlength)) fun {test s₂ c₂} _ hf₂ htest => ?_
  rw [present_eval (by omega) hfits.limit] at htest
  suffices htested : Proceeds m .univ env s₂ c₂ _ (if decide (data.limit < n) then .error
    .varargsOverflow
      else .ok fun _ _ c' => data.Forwarded p start n c.memory c'.memory) by
        simpa only [decide_eq_true_eq] using htested
  refine .guard htest fun hfew {s₃ c₃} _ hf₃ => ?_
  have hf := hf₁.trans (hf₂.trans hf₃)
  rw [← hf.memory]
  exact forwardFew_proceeds (hframe.later hf) (hlength.later (hf₂.trans hf₃)) hlt hfits
    (Nat.le_of_not_lt (of_decide_eq_false hfew))

/-- The code leaves exactly if there are more arguments than the limit, with memory as it was.
Otherwise it stores their number and copies them, and nothing else changes. -/
theorem forwardVarargs_outcome (hop : node.op = .forwardVarargs data)
    (h : lowerOp id node env s = .ok (u, s')) (hm : s'.builder.Completes m.func)
    (hc : m.At s.builder c) (hframe : c.Has s.builder env.frame .i64 p)
    (hn : Frame.argumentsFrom c.memory p data.offset = n) (hfits : data.Fits start n) :
    Course m .univ s s' c () (if data.limit < n then .error .varargsOverflow
        else .ok fun _ _ c' => data.Forwarded p start n c.memory c'.memory) ∧
      (LeavesBy m .varargsOverflow s' c ↔ data.limit < n) := by
  rw [lowerOp, hop] at h
  change lowerForwardVarargs data env s = .ok (u, s') at h
  have e : s.builder.Emits [] s'.builder := Tidy.after h (.refl hc.wf)
  have hforward := forwardVarargs_proceeds (m := m) hframe hn hfits
  refine ⟨hforward (.refl s) (.refl _ _) hc h hm, ?_⟩
  rw [(hforward.performs hc h hm e).leavesBy_iff]
  split <;> simp_all

end

/-! ## One argument

The number of arguments is stored before they are copied. A node that stores it in the place of an
argument copies the number with what is left of the argument. -/

namespace OneForwarded

def data : LoadVarargsData :=
  { count := .loc 2, start := .loc 0, limit := 2, offset := 0, mandatoryMinimum := 2 }

def forward : Node where
  op := .forwardVarargs data

/-- The frame has one argument, 1.5. -/
def memory : Memory := Simulation.FrameValues.memory { arguments := [0x3ffa000000000000] }

def start (f : Function) : Config Unit where
  registers := (Array.replicate f.types.size none).setIfInBounds 1 (some Simulation.frameAddress)
  memory
  runtimeState := ()

theorem data_fits : data.Fits 0 1 where
  local_eq := rfl
  first := rfl
  count := rfl
  targets i hi := by
    have hroom : max data.limit data.mandatoryMinimum = 2 := rfl
    exact Frame.inReach_loc (by omega)
  sources i hi := by
    have hfew : min 1 data.limit = 1 := rfl
    have hoffset : data.offset = 0 := rfl
    have hheader : Frame.headerSlots = 3 := rfl
    exact Frame.inReach_arg (by omega)
  limit := by decide
  offset := by decide
  outside := by decide
  kept := by decide

theorem start_at (g : Graph) (f : Function) :
    (Machine.plain f).At (TwoArguments.before g .jsValue).builder (start f) where
  wf := ⟨rfl, Nat.zero_lt_one⟩
  isOpen := rfl
  block := rfl
  position blk hb := by cases hb; rfl
  registers := by simp [start, Machine.plain]

end OneForwarded

/-- One argument is copied, and one place filled up. -/
theorem forwardVarargs_one : ∃ s',
    lowerOp ⟨2⟩ OneForwarded.forward
      (TwoArguments.env (TwoArguments.graph OneForwarded.forward .jsValue .jsValue))
        (TwoArguments.before (TwoArguments.graph OneForwarded.forward .jsValue .jsValue) .jsValue)
        = .ok ((), s') ∧
      (Machine.plain s'.builder.func).Does .univ
        (TwoArguments.before (TwoArguments.graph OneForwarded.forward .jsValue .jsValue)
          .jsValue).builder
        (OneForwarded.start s'.builder.func) s'.builder fun c' =>
          OneForwarded.data.Forwarded Simulation.frameAddress 0 1 OneForwarded.memory
            c'.memory := by
  have hcheck :
    (match lowerOp ⟨2⟩ OneForwarded.forward
      (TwoArguments.env (TwoArguments.graph OneForwarded.forward .jsValue .jsValue))
        (TwoArguments.before (TwoArguments.graph OneForwarded.forward .jsValue .jsValue) .jsValue)
          with
      | .error _ => false
      | .ok (_, s') => decide (1 < s'.builder.func.types.size)) = true := by decide +kernel
  split at hcheck
  · cases hcheck
  rename_i u s' h
  have hsize : 1 < s'.builder.func.types.size := of_decide_eq_true hcheck
  refine ⟨s', h, ?_⟩
  have hframe : (OneForwarded.start s'.builder.func).Has
      (TwoArguments.before (TwoArguments.graph OneForwarded.forward .jsValue .jsValue)
        .jsValue).builder ⟨1⟩ .i64
      Simulation.frameAddress := ⟨rfl, by simp [OneForwarded.start, hsize]⟩
  have hone : Frame.argumentsFrom OneForwarded.memory Simulation.frameAddress 0 = 1 := by
    decide +kernel
  have hop : OneForwarded.forward.op = .forwardVarargs OneForwarded.data := rfl
  exact (forwardVarargs_outcome (m := Machine.plain s'.builder.func) hop h
    s'.builder.completes_self
    (OneForwarded.start_at _ _) hframe hone OneForwarded.data_fits).1

/-- Stores the number of arguments in the place of the argument that it copies, and returns what it
copied. -/
def countOverArgument : Graph where
  name := "countOverArgument"
  nodes := #[
    { op := .forwardVarargs { count := .arg 1, start := .loc 0, limit := 1, offset := 0,
                              mandatoryMinimum := 0 } },
    { op := .getStack { operand := .loc 0, slot := .loc 0, format := .jsValue },
      result := .jsValue },
    { op := .ret, children := [{ node := ⟨1⟩ }] }]
  blocks := #[{ index := ⟨0⟩, nodes := #[⟨0⟩, ⟨1⟩, ⟨2⟩] }]
  numArguments := 2
  numLocals := 1

/-- There is one argument, within the limit, and its number is not stored where it is copied to. It
is not what is copied. -/
theorem countOverArgument_returns : countOverArgument.canCompile.isOk = true ∧
    Frame.argumentsFrom OneForwarded.memory Simulation.frameAddress 0 = 1 ∧ Operand.arg 1 ≠ .loc 0 ∧
    OneForwarded.memory.read (Frame.source Simulation.frameAddress 0 0) 8 = 0x3ffa000000000000 ∧
    simulated countOverArgument OneForwarded.memory = some (.returned 0x3ffa000000000002) := by
  decide +kernel

end Lowering

end SpecJit
