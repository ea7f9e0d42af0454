import SpecJit.Proofs.Lowering.ArrayEnds
import SpecJit.Proofs.Lowering.Polymorphic

/-!
# Fresh memory

Code that allocates gets pieces of memory: a cell from a free list of the context or storage from
its linear area, or either of them from the runtime, which also makes long arrays. Between two
states of memory lies a `History` of that: pieces became available and words were stored, in some
order, and nothing else happened. `Builds m x env b c f Q` says of a lowering step that its code has
such a history, and `Fills` that it only stores: at places that are allowed, and at least what is
listed.
-/

namespace SpecJit

open Lir

/-! ## Layouts -/

/-- All fields but the inline storage are in their usual places, and the inline storage is behind
them. -/
structure ObjectLayout.KeepsFields (layout : ObjectLayout) : Prop where
  field : ∀ f, f ≠ .inlineStorage → layout.fieldOffset f = f.standardOffset
  behind : 16 ≤ layout.fieldOffset .inlineStorage
  small : layout.fieldOffset .inlineStorage < 0x80000000

theorem ObjectLayout.keepsFields_standard : ObjectLayout.standard.KeepsFields :=
  ⟨fun _ _ => rfl, by decide, by decide⟩

namespace Lowering

/-! ## Pieces and stores -/

/-- Bytes that were asked for, from an address on. -/
structure Piece where
  start : Word
  bytes : Nat

/-- A store of the low bytes of a word. -/
structure Stored where
  address : Word
  bytes : Nat
  word : Word

/-- The bytes that are stored are `lo` or more behind `a`, and before what is `hi` behind it. -/
def Stored.In (x : Stored) (a : Word) (lo hi : Int) : Prop :=
  ∃ k, x.address = displace a k ∧ lo ≤ k ∧ k + x.bytes ≤ hi

theorem Stored.In.mono {x : Stored} {a : Word} {lo lo' hi hi' : Int} (h : x.In a lo hi)
    (hlo : lo' ≤ lo) (hhi : hi ≤ hi') :
    x.In a lo' hi' := by
  obtain ⟨k, hk, hl, hh⟩ := h
  exact ⟨k, hk, by omega, by omega⟩

/-- What is stored is inside of the piece. -/
def Stored.Inside (x : Stored) (p : Piece) : Prop := x.In p.start 0 p.bytes

theorem Stored.In.inside {x : Stored} {a : Word} {j lo hi : Int} {n : Nat}
    (h : x.In (displace a j) lo hi) (hlo : 0 ≤ j + lo) (hhi : j + hi ≤ n) : x.Inside ⟨a, n⟩ := by
  obtain ⟨k, hk, hl, hh⟩ := h
  exact ⟨j + k, by rw [hk, displace_displace], by omega, by simp only []; omega⟩

section

variable {σ : Type} (m : Machine σ) (layout : ObjectLayout) (x : Word)

/-- A piece becomes available: from the free list of a size, from the linear area, or from the
runtime. The array that the runtime makes for a length has its elements in a piece. -/
inductive Fresh : Memory → Piece → Memory → Prop
  | listed {memory : Memory} {n cls : Nat} (hcls : Context.sizeClass? n = some cls)
      (hlist : memory.read (Machine.address x (Int32.ofInt (Context.freeListOffset cls))) 8 ≠ 0) :
      Fresh memory ⟨memory.read (Machine.address x (Int32.ofInt (Context.freeListOffset cls))) 8, n⟩
        (memory.write (Machine.address x (Int32.ofInt (Context.freeListOffset cls))) 8
          (memory.read (memory.read (Machine.address x (Int32.ofInt (Context.freeListOffset cls)))
            8) 8))
  | linear {memory : Memory} {n : Nat}
      (hfits : memory.read (Machine.address x (Int32.ofInt Context.linearCursorOffset))
        8 + UInt64.ofNat n ≤
        memory.read (Machine.address x (Int32.ofInt Context.linearEndOffset)) 8) :
      Fresh memory ⟨memory.read (Machine.address x (Int32.ofInt Context.linearCursorOffset)) 8, n⟩
        (memory.write (Machine.address x (Int32.ofInt Context.linearCursorOffset)) 8
          (memory.read (Machine.address x (Int32.ofInt Context.linearCursorOffset)) 8 + UInt64.ofNat
            n))
  | cell {before after : Memory} {n : Nat} {a : Word} (h : Answers m .allocateCell [UInt64.ofNat n]
    before a after) :
      Fresh before ⟨a, n⟩ after
  | storage {before after : Memory} {n : Nat} {a : Word}
    (h : Answers m .allocateStorage [UInt64.ofNat n] before a after) :
      Fresh before ⟨a, n⟩ after
  | elements {before after : Memory} {n : Nat} {structureId array : Word}
      (h : Answers m .newArrayWithSize [structureId, UInt64.ofNat n] before array after) :
      Fresh before ⟨after.read (Butterfly.fieldAddress layout array) 8, 8 * n⟩ after

/-- From the one state of memory to the other the pieces became available and the words were stored.
-/
inductive History : Memory → List Piece → List Stored → Memory → Prop
  | nil {memory : Memory} : History memory [] [] memory
  | fresh {before between after : Memory} {p : Piece} {ps : List Piece} {xs : List Stored}
    (h : Fresh m layout x before p between)
      (rest : History between ps xs after) : History before (p :: ps) xs after
  | store {before after : Memory} {stored : Stored} {ps : List Piece} {xs : List Stored}
      (rest : History (before.write stored.address stored.bytes stored.word) ps xs after) :
      History before ps (stored :: xs) after

variable {m layout x}

theorem History.trans {before between after : Memory} {ps ps' : List Piece} {xs xs' : List Stored}
    (h : History m layout x before ps xs between) (h' : History m layout x between ps' xs' after) :
    History m layout x before (ps ++ ps') (xs ++ xs') after := by
  induction h with
  | nil => exact h'
  | fresh hp _ ih => exact .fresh hp (ih h')
  | store _ ih => exact .store (ih h')

end

/-! ## Steps that build -/

section

variable {α β σ : Type} {m : Machine σ} {env : Env} {x : Word} {b b' : Builder} {c c' : Config σ}
  {a v w : Word} {r cell : Reg} {ty : Ty} {n : Nat} {lo hi : Int}

/-- The code of the step makes pieces of memory available and stores words, wherever it stands after
`b`. -/
def Builds (m : Machine σ) (x : Word) (env : Env) (b : Builder) (c : Config σ) (f : Lower α)
    (Q : α → Builder → Config σ → List Piece → List Stored → Prop) : Prop :=
  Acts m .univ env b c f fun r b' c' => ∃ ps xs, History m env.layout x c.memory ps xs c'.memory ∧
    Q r b' c' ps xs

namespace Builds

variable {f : Lower α} {g : α → Lower β}
  {Q Q' : α → Builder → Config σ → List Piece → List Stored → Prop}
  {R : β → Builder → Config σ → List Piece → List Stored → Prop}

theorem mono (hf : Builds m x env b c f Q)
    (hq : ∀ {r b' c' ps xs}, Q r b' c' ps xs → Q' r b' c' ps xs) :
    Builds m x env b c f Q' :=
  Acts.mono hf fun ⟨ps, xs, hhistory, h⟩ => ⟨ps, xs, hhistory, hq h⟩

theorem pure {r : α} (hq : ∀ {b' c'}, c.Follows b c' b' → Q r b' c' [] []) :
    Builds m x env b c (pure r) Q :=
  Acts.pure fun hf => ⟨[], [], hf.memory ▸ .nil, hq hf⟩

theorem bind [Tidy f] [∀ r, Tidy (g r)] (hf : Builds m x env b c f Q)
    (hg : ∀ {r b' c' ps xs}, b.Extends b' → c.Retains b c' → Q r b' c' ps xs →
      Builds m x env b' c' (g r) fun r' b'' c'' ps' xs' => R r' b'' c'' (ps ++ ps') (xs ++ xs')) :
    Builds m x env b c (f >>= g) R :=
  Acts.bind hf fun e hregs ⟨_, _, hhistory, h⟩ =>
    Acts.mono (hg e hregs h) fun ⟨_, _, hhistory', h'⟩ => ⟨_, _, hhistory.trans hhistory', h'⟩

/-- A value that is computed before the rest. -/
theorem value {f : Lower Reg} {g : Reg → Lower β} [Tidy f] [∀ r, Tidy (g r)]
    (hf : YieldsIn m .univ env b c f ty v)
    (hg : ∀ {r b' c'}, c.Follows b c' b' → c'.Has b' r ty v → Builds m x env b' c' (g r) R) :
    Builds m x env b c (f >>= g) R :=
  YieldsIn.andThen hf fun hfollows hr => Acts.mono (hg hfollows hr) fun ⟨ps, xs, hhistory, h⟩ =>
    ⟨ps, xs, hfollows.memory ▸ hhistory, h⟩

theorem ofRead {g : Env → Lower β} (h : Builds m x env b c (g env) R) :
    Builds m x env b c (read >>= g) R := h

theorem ofCheck {e : Except Fault α} (h : ∀ {r}, e = .ok r → Builds m x env b c (g r) R) :
    Builds m x env b c (liftM e >>= g) R :=
  Acts.ofCheck h

theorem ofLookup {P : α → Prop} (hf : ∀ {s r s'}, f env s = .ok (r, s') → s' = s ∧ P r)
    (hg : ∀ {r}, P r → Builds m x env b c (g r) R) :
    Builds m x env b c (f >>= g) R := Acts.ofLookup hf hg

/-- A piece that becomes available. -/
theorem ofFresh {f : Lower Reg}
    (hf : Acts m .univ env b c f (InRegister .i64 fun a after => Fresh m env.layout x c.memory
      ⟨a, n⟩ after)) :
    Builds m x env b c f fun r b' c' ps xs => ∃ a, c'.Has b' r .i64 a ∧ ps = [⟨a, n⟩] ∧ xs = [] :=
  Acts.mono hf fun ⟨a, hr, hfresh⟩ => ⟨[⟨a, n⟩], [], .fresh hfresh .nil, a, hr, rfl, rfl⟩

end Builds

/-! ## Steps that only store -/

/-- The code of the step stores words only. All of them are as `ok` says, and `marks` are among
them. -/
def Fills (m : Machine σ) (x : Word) (env : Env) (b : Builder) (c : Config σ) (f : Lower α)
    (ok : Stored → Prop) (marks : List Stored) :
    Prop :=
  Builds m x env b c f fun _ _ _ ps xs => ps = [] ∧ (∀ y ∈ xs, ok y) ∧ marks ⊆ xs

namespace Fills

variable {f : Lower α} {g : α → Lower β} {ok ok' : Stored → Prop} {marks marks' : List Stored}

theorem mono (hf : Fills m x env b c f ok marks) (hok : ∀ y, ok y → ok' y) (hmarks : marks' ⊆ marks)
    : Fills m x env b c f ok' marks' :=
  Builds.mono hf fun ⟨hps, hxs, h⟩ => ⟨hps, fun y hy => hok y (hxs y hy), fun _ hy => h (hmarks hy)⟩

theorem pure {r : α} : Fills m x env b c (pure r) ok [] := Builds.pure fun _ => ⟨rfl, nofun, nofun⟩

theorem bind [Tidy f] [∀ r, Tidy (g r)] (hf : Fills m x env b c f ok marks)
    (hg : ∀ {r b' c'}, b.Extends b' → c.Retains b c' → Fills m x env b' c' (g r) ok marks') :
    Fills m x env b c (f >>= g) ok (marks ++ marks') := by
  refine Builds.bind hf fun e hregs ⟨hps, hxs, h⟩ => Builds.mono (hg e hregs) ?_
  rintro _ _ _ ps' xs' ⟨rfl, hxs', h'⟩
  refine ⟨by
    rw [hps]; rfl, fun y hy => (List.mem_append.1 hy).elim (hxs y) (hxs' y), fun y hy => ?_⟩
  rcases List.mem_append.1 hy with hy | hy
  · exact List.mem_append_left _ (h hy)
  · exact List.mem_append_right _ (h' hy)

/-- A step whose stores are not listed. -/
theorem andThen [Tidy f] [∀ r, Tidy (g r)] (hf : Fills m x env b c f ok marks)
    (hg : ∀ {r b' c'}, b.Extends b' → c.Retains b c' → Fills m x env b' c' (g r) ok marks') :
    Fills m x env b c (f >>= g) ok marks' :=
      .mono (.bind hf hg) (fun _ h => h) (List.subset_append_right _ _)

theorem value {f : Lower Reg} {g : Reg → Lower β} [Tidy f] [∀ r, Tidy (g r)]
    (hf : YieldsIn m .univ env b c f ty v)
    (hg : ∀ {r b' c'}, c.Follows b c' b' → c'.Has b' r ty v → Fills m x env b' c' (g r) ok marks) :
    Fills m x env b c (f >>= g) ok marks := Builds.value hf hg

theorem ofRead {g : Env → Lower β} (h : Fills m x env b c (g env) ok marks) :
    Fills m x env b c (read >>= g) ok marks := h

theorem ofCheck {e : Except Fault α} (h : ∀ {r}, e = .ok r → Fills m x env b c (g r) ok marks) :
    Fills m x env b c (liftM e >>= g) ok marks := Builds.ofCheck h

/-- Steps for the members of a list that go together with those of another one. -/
theorem forM₂ {κ ι : Type} {f : κ → Lower Unit} [∀ k, Tidy (f k)] {R : κ → ι → Prop} {l : List κ}
    {l' : List ι}
    {marks : ι → List Stored} (h : List.Forall₂ R l l')
    (hf : ∀ {k i}, i ∈ l' → R k i → ∀ {b' c'}, b.Extends b' → c.Retains b c' →
      Fills m x env b' c' (f k) ok (marks i)) :
    Fills m x env b c (l.forM f) ok (l'.flatMap marks) := by
  induction h generalizing b c with
  | nil => exact .pure
  | @cons k i l l' hki _ ih =>
    rw [forM_cons, List.flatMap_cons]
    exact .bind (hf List.mem_cons_self hki (.refl b) fun _ _ => rfl) fun e hregs =>
      ih fun hi' hki' _ _ e' hregs' =>
      hf (List.mem_cons_of_mem _ hi') hki' (e.trans e') (hregs.trans hregs' e)

/-- Steps for the members of a list. -/
theorem forM {κ : Type} {f : κ → Lower Unit} [∀ k, Tidy (f k)] {l : List κ}
    {marks : κ → List Stored}
    (hf : ∀ k ∈ l, ∀ {b' c'}, b.Extends b' → c.Retains b c' → Fills m x env b' c' (f k)
      ok (marks k)) :
    Fills m x env b c (l.forM f) ok (l.flatMap marks) := by
  refine .forM₂ (List.forall₂_same.2 fun _ _ => rfl) ?_
  rintro k _ hk rfl
  exact hf k hk

end Fills

/-- One store, at a distance of 32 bits from an address. -/
theorem store_fills {width : MemWidth} {value addr : Reg} {k : Int} {ok : Stored → Prop}
    (hv : c.Has b value ty w) (ha : c.Has b addr .i64 a) (hlo : -0x80000000 ≤ k)
    (hhi : k < 0x80000000) (hok : ok ⟨displace a k, width.bytes, width.encode w⟩) :
    Fills m x env b c (liftM (Emit.store width value addr k))
      ok [⟨displace a k, width.bytes, width.encode w⟩] := by
  have hstore : Acts m .univ env b c (liftM (Emit.store width value addr k)) _ := store_acts hv ha
  rw [Machine.address_ofInt a hlo hhi] at hstore
  unfold Fills Builds
  refine hstore.mono fun {_ _ c'} hmem => ⟨[], [⟨displace a k, width.bytes, width.encode w⟩], ?_,
    rfl, ?_, fun _ h => h⟩
  · rw [hmem]
    exact .store .nil
  · simpa using hok

theorem storeField_fills {width : MemWidth} {value cell : Reg} {field : CellField}
    {ok : Stored → Prop} {k : Int} (hk : env.layout.fieldOffset field = k) (hv : c.Has b value ty w)
    (ha : c.Has b cell .i64 a) (hlo : -0x80000000 ≤ k) (hhi : k < 0x80000000)
    (hok : ok ⟨displace a k, width.bytes, width.encode w⟩) :
    Fills m x env b c (storeField width value cell field)
      ok [⟨displace a k, width.bytes, width.encode w⟩] := by
  subst hk
  have hstore : Fills m x env b c _ ok [⟨displace a _, width.bytes, width.encode w⟩] :=
    store_fills hv ha hlo hhi hok
  unfold Fills Builds at hstore ⊢
  unfold storeField
  exact .ofField hstore

/-! ## Cells and storage -/

theorem load64_yieldsIn {addr : Reg} {k : Int} (h : c.Has b addr .i64 a) :
    YieldsIn m .univ env b c (liftM (Emit.load64 addr k)) .i64
      (c.memory.read (Machine.address a (Int32.ofInt k)) 8) :=
  .ofEmit (Emit.load_yieldsIn h trivial)

theorem store64_acts {value addr : Reg} {k : Int} (hv : c.Has b value ty w)
    (ha : c.Has b addr .i64 a) :
    Acts m .univ env b c (liftM (Emit.store64 value addr k)) fun _ _ c' =>
      c'.memory = c.memory.write (Machine.address a (Int32.ofInt k)) 8 w := store_acts hv ha

theorem ule_eval (v w : Word) : IntCC.ule.eval .i64 v w = decide (v ≤ w) := by
  simp [IntCC.eval, IntCC.holds, UInt64.le_iff_toNat_le]

theorem allocateCell_acts (hx : c.Has b env.context .i64 x) : Acts m .univ env b c (allocateCell n)
    (InRegister .i64 fun a after => Fresh m env.layout x c.memory ⟨a, n⟩ after) := by
  have hruntime {b' c'} (hf : c.Follows b c' b') : Acts m .univ env b' c'
    (do callHelper .allocateCell [← Emit.int64 n])
      (InRegister .i64 fun a after => Fresh m env.layout x c.memory ⟨a, n⟩ after) := by
    refine YieldsIn.andThen (.ofEmit (Emit.int64_yieldsIn n)) fun hf' hr =>
      (callHelper_acts (.cons ⟨_, hr⟩ .nil)).mono ?_
    rintro r b₂ c₂ ⟨a, ha, hanswers⟩
    rw [hf'.memory, hf.memory] at hanswers
    exact ⟨a, ha, .cell hanswers⟩
  unfold allocateCell
  split
  · exact hruntime (.refl _ _)
  · rename_i cls hcls
    refine .ofRead (YieldsIn.andThen (load64_yieldsIn hx) fun {head b₁ c₁} hf₁ hhead => ?_)
    refine YieldsIn.andThen (.ofEmit (Emit.icmpImm_yieldsIn hhead)) fun {empty b₂ c₂} hf₂ hempty =>
      ?_
    refine diamond_acts hempty (fun _ => hruntime (hf₁.trans hf₂)) fun hsome => ?_
    rw [Lir.ofBool_eq_zero, IntCC.eq_eval, beq_eq_false_iff_ne] at hsome
    refine YieldsIn.andThen (load64_yieldsIn (hhead.later hf₂)) fun {next b₃ c₃} hf₃ hnext => ?_
    refine Acts.bind (store64_acts hnext (hx.later (hf₁.trans (hf₂.trans hf₃))))
      fun {_ b₄ c₄} e hregs hmem => ?_
    refine .pure fun hf => ⟨_, ((hhead.later (hf₂.trans hf₃)).retain e hregs).later hf, ?_⟩
    rw [hf.memory, hmem, hf₃.memory, hf₂.memory, hf₁.memory, address_zero]
    exact .listed hcls hsome

theorem allocateStorage_acts {bytes : Reg} (hx : c.Has b env.context .i64 x)
    (hbytes : c.Has b bytes .i64 (UInt64.ofNat n)) :
    Acts m .univ env b c (allocateStorage bytes) (InRegister .i64 fun a after => Fresh m env.layout
      x c.memory ⟨a, n⟩ after) := by
  unfold allocateStorage
  refine .ofRead (YieldsIn.andThen (load64_yieldsIn hx) fun {cursor b₁ c₁} hf₁ hcursor => ?_)
  refine YieldsIn.andThen (load64_yieldsIn (hx.later hf₁)) fun {limit b₂ c₂} hf₂ hlimit => ?_
  refine YieldsIn.andThen
    (.ofEmit (Emit.binary_yieldsIn (hcursor.later hf₂) (hbytes.later (hf₁.trans hf₂))))
      fun {bumped b₃ c₃} hf₃ hbumped => ?_
  rw [Ty.normalize_i64, BinaryOp.add_eval] at hbumped
  refine YieldsIn.andThen (.ofEmit (Emit.icmp_yieldsIn hbumped (hlimit.later hf₃)))
    fun {fits b₄ c₄} hf₄ hfits => ?_
  have hf : c.Follows b c₄ b₄ := hf₁.trans (hf₂.trans (hf₃.trans hf₄))
  refine diamond_acts hfits (fun hroom => ?_) fun _ => ?_
  · rw [Lir.ofBool_ne_zero, ule_eval, decide_eq_true_eq, hf₁.memory] at hroom
    refine Acts.bind (store64_acts (hbumped.later hf₄) (hx.later hf)) fun {_ b₅ c₅} e hregs hmem =>
      ?_
    refine .pure fun hf' => ⟨_, ((hcursor.later (hf₂.trans (hf₃.trans hf₄))).retain e hregs).later
      hf', ?_⟩
    rw [hf'.memory, hmem, hf.memory]
    exact .linear hroom
  · refine (callHelper_acts (.cons ⟨_, hbytes.later hf⟩ .nil)).mono ?_
    rintro r b' c' ⟨a, ha, hanswers⟩
    rw [hf.memory] at hanswers
    exact ⟨a, ha, .storage hanswers⟩

/-! ## Headers and butterflies -/

set_option synthInstance.maxSize 4000 in
/-- The header of a cell is stored into its first 8 bytes. -/
theorem initializeHeader_fills {t : Structure} (hlayout : env.layout.KeepsFields)
    (ha : c.Has b cell .i64 a) :
    Fills m x env b c (initializeHeader cell t) (·.In a 0 8) [] := by
  have hbyte {field : CellField} {k : Int} {r : Reg} {v : Word} {b' : Builder} {c' : Config σ}
    (hk : env.layout.fieldOffset field = k)
      (hr : c'.Has b' r .i32 v) (ha : c'.Has b' cell .i64 a) (hlo : 0 ≤ k) (hhi : k + 1 ≤ 8) :
      Fills m x env b' c' (storeField .w8 r cell field) (·.In a 0 8) [] :=
    (storeField_fills hk hr ha (by omega) (by omega) ⟨k, rfl, hlo, hhi⟩).mono (fun _ h => h)
      (List.nil_subset _)
  have hid : Fills m x env b c (storeStructureId cell t.id) (·.In a 0 8) [] := by
    refine .value (.ofEmit (Emit.int32_yieldsIn _)) fun hf hr => ?_
    exact (storeField_fills (k := 0) (hlayout.field _ (by decide)) hr (ha.later hf) (by decide)
      (by decide)
      ⟨0, rfl, by decide, by simp [MemWidth.bytes]⟩).mono (fun _ h => h) (List.nil_subset _)
  have htag {r : Reg} {v : Word} {b' : Builder} {c' : Config σ} (hr : c'.Has b' r .i32 v)
    (ha : c'.Has b' cell .i64 a) :
      Fills m x env b' c' (liftM (Emit.store .w8 r cell env.layout.tagOffset)) (·.In a 0 8) [] := by
    rw [ObjectLayout.tagOffset, hlayout.field _ (by decide)]
    exact (store_fills (k := 5) hr ha (by decide) (by decide) ⟨5, rfl,
      by decide, by simp [MemWidth.bytes]⟩).mono (fun _ h => h)
      (List.nil_subset _)
  refine Fills.bind hid fun e₁ hregs₁ => .value (.ofEmit (Emit.int32_yieldsIn _)) fun hf₁ hr₁ => ?_
  replace ha := (ha.retain e₁ hregs₁).later hf₁
  refine Fills.bind (hbyte (k := 4) (hlayout.field _ (by decide)) hr₁ ha (by decide) (by decide))
    fun e₂ hregs₂ =>
    .value (.ofEmit (Emit.int32_yieldsIn _)) fun hf₂ hr₂ => .ofRead ?_
  replace ha := (ha.retain e₂ hregs₂).later hf₂
  refine Fills.bind (htag hr₂ ha) fun e₃ hregs₃ =>
    .value (.ofEmit (Emit.int32_yieldsIn _)) fun hf₃ hr₃ => ?_
  replace ha := (ha.retain e₃ hregs₃).later hf₃
  refine Fills.bind (hbyte (k := 6) (hlayout.field _ (by decide)) hr₃ ha (by decide) (by decide))
    fun e₄ hregs₄ =>
    .value (.ofEmit (Emit.int32_yieldsIn _)) fun hf₄ hr₄ => ?_
  exact hbyte (k := 7) (hlayout.field _ (by decide)) hr₄ ((ha.retain e₄ hregs₄).later hf₄)
    (by decide) (by decide)

/-- The stores of the lengths of a butterfly with room for its elements only. -/
def lengths (layout : ObjectLayout) (v : Word) (n : Nat) : List Stored :=
  [⟨displace v (layout.fieldOffset .publicLength), 4, UInt64.ofNat n⟩,
    ⟨displace v (layout.fieldOffset .vectorLength), 4, UInt64.ofNat n⟩]

theorem checkU32_ok {z : Int} {k : Nat} (h : Fault.checkU32 z = .ok k) :
    (k : Int) = z ∧ k < 0x100000000 := by
  unfold Fault.checkU32 at h
  split at h
  · cases h
    omega
  · cases h

theorem butterflyPreamble_ok {outOfLine p : Nat}
    (h : ObjectLayout.butterflyPreamble outOfLine = .ok p) :
    p = 8 + 8 * outOfLine ∧ p < 0x100000000 := by
  obtain ⟨bytes, hbytes, h⟩ := bind_eq_ok_iff.1 h
  have hbytes := (checkU32_ok hbytes).1
  obtain ⟨hp, hlt⟩ := checkU32_ok h
  omega

/-- The bytes of as many elements. -/
theorem scaled_eval (hn : n < 0x100000000) :
    BinaryOp.shl.eval .i64 (extend false (UInt64.ofNat n))
      (Ty.i64.normalize (Int64.ofInt 3).toUInt64) = UInt64.ofNat (8 * n) := by
  have hwide : extend false (UInt64.ofNat n) = UInt64.ofNat n := by
    rw [extend, if_neg Bool.false_ne_true, ← UInt64.toNat_inj, UInt32.toNat_toUInt64,
      UInt64.toNat_toUInt32, UInt64.toNat_ofNat']
    omega
  have hshift : 3 < 64 := by omega
  refine (BinaryOp.shl_eval _ hshift).trans ?_
  rw [hwide, ← UInt64.toNat_inj, UInt64.toNat_shiftLeft, UInt64.toNat_ofNat', UInt64.toNat_ofNat',
    UInt64.toNat_ofNat', show 3 % 2 ^ 64 % 64 = 3 from rfl, Nat.shiftLeft_eq]
  omega

set_option synthInstance.maxSize 4000 in
/-- A butterfly with its lengths, which are the last that stands before its elements. -/
theorem allocateButterfly_builds {outOfLine : Nat} {publicLength vectorLength : Reg}
    (hlayout : env.layout.KeepsFields) (hx : c.Has b env.context .i64 x)
    (hpublic : c.Has b publicLength .i32 (UInt64.ofNat n))
    (hvector : c.Has b vectorLength .i32 (UInt64.ofNat n)) (hn : n < 0x100000000) :
    Builds m x env b c (allocateButterfly outOfLine publicLength vectorLength) fun r b' c' ps xs =>
      8 + 8 * outOfLine < 0x100000000 ∧ ∃ base, c'.Has b' r .i64 (displace base (8 + 8 * outOfLine))
        ∧
        ps = [⟨base, 8 + 8 * outOfLine + 8 * n⟩] ∧
        (∀ y ∈ xs, y.In (displace base (8 + 8 * outOfLine)) (-8) 0) ∧
        lengths env.layout (displace base (8 + 8 * outOfLine)) n ⊆ xs := by
  unfold allocateButterfly
  refine .ofCheck fun {p} hp => ?_
  obtain ⟨rfl, hp⟩ := butterflyPreamble_ok hp
  refine .value (.ofEmit (Emit.zeroExtend_yieldsIn hvector)) fun {wide b₁ c₁} hf₁ hwide => ?_
  refine .value (.ofEmit (Emit.binaryImm_yieldsIn hwide)) fun {elements b₂ c₂} hf₂ helements => ?_
  refine .value (.ofEmit (Emit.binaryImm_yieldsIn helements)) fun {bytes b₃ c₃} hf₃ hbytes => ?_
  have hf : c.Follows b c₃ b₃ := hf₁.trans (hf₂.trans hf₃)
  rw [Ty.normalize_i64, scaled_eval hn] at helements
  have hword : UInt64.ofNat (8 * n) + (Int64.ofInt ((8 + 8 * outOfLine : Nat) : Int)).toUInt64
    = UInt64.ofNat (8 + 8 * outOfLine + 8 * n) := by
    rw [toUInt64_ofInt, ← UInt64.toNat_inj, UInt64.toNat_add, toNat_ofInt, UInt64.toNat_ofNat',
      UInt64.toNat_ofNat']
    omega
  rw [Ty.normalize_i64, scaled_eval hn, Ty.normalize_i64, Ty.normalize_i64, BinaryOp.add_eval,
    hword] at hbytes
  refine .bind (.ofFresh (allocateStorage_acts (hx.later hf) hbytes))
    fun {base b₄ c₄ ps xs} e hregs hfresh => ?_
  obtain ⟨w, hbase, rfl, rfl⟩ := hfresh
  refine .value (.ofEmit (Emit.binaryImm_yieldsIn hbase)) fun {butterfly b₅ c₅} hf₅ hbutterfly => ?_
  replace hbutterfly : c₅.Has b₅ butterfly .i64 (displace w (8 + 8 * outOfLine)) := by
    have hcast : ((8 + 8 * outOfLine : Nat) : Int) = 8 + 8 * outOfLine := by omega
    rw [Ty.normalize_i64, Ty.normalize_i64, BinaryOp.add_eval, toUInt64_ofInt, hcast] at hbutterfly
    exact hbutterfly
  have hstores : Fills m x env b₅ c₅ (do
      storeField .w32 publicLength butterfly .publicLength
      storeField .w32 vectorLength butterfly .vectorLength) (·.In (displace w (8 + 8 * outOfLine))
        (-8) 0)
      (lengths env.layout (displace w (8 + 8 * outOfLine)) n) := by
    have hp := ((hpublic.later hf).retain e hregs).later hf₅
    have hv := ((hvector.later hf).retain e hregs).later hf₅
    rw [lengths, hlayout.field _ (by decide), hlayout.field _ (by decide)]
    rw [← List.singleton_append]
    refine .bind (storeField_fills (k := -8) (hlayout.field _ (by decide)) hp hbutterfly (by decide)
      (by decide)
      ⟨-8, rfl, by decide, by simp [MemWidth.bytes]⟩) fun e' hregs' => ?_
    exact storeField_fills (k := -4) (hlayout.field _ (by decide)) (hv.retain e' hregs')
      (hbutterfly.retain e' hregs') (by decide)
      (by decide) ⟨-4, rfl, by decide, by simp [MemWidth.bytes]⟩
  rw [← bind_assoc]
  refine Builds.bind hstores fun {_ b₆ c₆ ps xs} e' hregs' h => .pure fun hf₆ => ?_
  obtain ⟨hps, hin, hmarks⟩ := h
  refine ⟨hp, w, (hbutterfly.retain e' hregs').later hf₆, by simp [hps], ?_, ?_⟩
  · simpa using hin
  · simpa using hmarks

/-- A butterfly without elements, which the object refers to. -/
theorem attachButterfly_builds {object : Reg} {outOfLine : Nat} (hlayout : env.layout.KeepsFields)
    (hx : c.Has b env.context .i64 x) (ha : c.Has b object .i64 a) :
    Builds m x env b c (attachButterfly object outOfLine) fun r b' c' ps xs =>
      8 + 8 * outOfLine < 0x100000000 ∧ ∃ base, c'.Has b' r .i64 (displace base (8 + 8 * outOfLine))
        ∧
        ps = [⟨base, 8 + 8 * outOfLine⟩] ∧
        (∀ y ∈ xs, y.In (displace base (8 + 8 * outOfLine)) (-8) 0 ∨ y.In a 8 16) ∧
        lengths env.layout (displace base (8 + 8 * outOfLine)) 0 ⊆ xs := by
  unfold attachButterfly
  refine .value (.ofEmit (Emit.int32_yieldsIn 0)) fun {zero b₁ c₁} hf₁ hzero => ?_
  refine .bind (allocateButterfly_builds (n := 0) hlayout (hx.later hf₁) hzero hzero (by omega))
    fun {r b₂ c₂ ps xs} e hregs h => ?_
  obtain ⟨hsize, base, hr, rfl, hin, hmarks⟩ := h
  have ha₂ := (ha.later hf₁).retain e hregs
  have hstore : Fills m x env b₂ c₂ (storeField .w64 r object .butterfly) (·.In a 8 16) [_] :=
    storeField_fills (k := 8) (hlayout.field _ (by decide)) hr ha₂ (by decide) (by decide) ⟨8, rfl,
      by decide, by simp [MemWidth.bytes]⟩
  refine .bind hstore fun {_ b₃ c₃ ps' xs'} e' hregs' h => .pure fun hf₃ => ?_
  obtain ⟨hps, hin', -⟩ := h
  refine ⟨hsize, base, (hr.retain e' hregs').later hf₃,
    by simp [hps], fun y hy => ?_, fun y hy => ?_⟩
  · rcases List.mem_append.1 hy with hy | hy
    · exact .inl (hin y hy)
    · exact .inr (hin' y (by simpa using hy))
  · exact List.mem_append_left _ (hmarks hy)

end

end Lowering

end SpecJit
