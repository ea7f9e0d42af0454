import Mathlib.Data.List.Duplicate
import SpecJit.Proofs.Lir.PairedRuns
import SpecJit.Proofs.Lir.Reachability
import SpecJit.Proofs.Lowering.Switch.Keys

/-!
# Definitions before reads

A backend takes the blocks of a function in the order of the search and refuses a register that is
read before a definition of it was met. In a function in which every read is dominated by a
definition (`Function.ReadsDominated`) this never happens: the definition stands in the same block
before the read, or in a block that the search listed before (`Function.Listed.definedFirst`).

`Codegen.Lands bad x Q` is what is shown of each check of the backend: it refuses for a reason in
`bad`, or `Q` holds of its result. The registers that are defined are followed by `Codegen.Knows`,
through the parameters of a block, its instructions and from block to block. So the backend takes a
function only if each read comes after a definition, and if so has no reasons left but those in
`Codegen.Objects` (`Codegen.lands_check`).
-/

namespace SpecJit

namespace Lir

variable {f : Function} {order : List BlockId} {blk : Block} {r : Reg}

/-- The register is defined by a parameter of the block or by one of its first `k` instructions. -/
def Block.DefinesBefore (blk : Block) (k : Nat) (r : Reg) : Prop :=
  r ∈ blk.params ∨ ∃ j < k, ∃ i, blk.insts[j]? = some i ∧ i.defines? = some r

/-- The register is defined in the block. -/
def Block.Defines (blk : Block) (r : Reg) : Prop := blk.DefinesBefore blk.insts.size r

/-- What the block reads is in `V` or was defined in the block before. -/
structure Block.ReadsWithin (blk : Block) (V : Reg → Prop) : Prop where
  insts : ∀ (k : Nat) i, blk.insts[k]? = some i → ∀ r ∈ i.inst.reads, V r ∨ blk.DefinesBefore k r
  ends : ∀ r ∈ blk.terminator.reads, V r ∨ blk.Defines r

/-- A definition of the register is in another block that dominates `b`. -/
def Function.DefinedAbove (f : Function) (b : BlockId) (r : Reg) : Prop :=
  ∃ a blk, f.Dominates a b ∧ a ≠ b ∧ f.blocks[a.index]? = some blk ∧ blk.Defines r

/-- Where control can come to, whatever is read has a definition that dominates the read: before it
in the same block, or in another block that dominates this one. -/
def Function.ReadsDominated (f : Function) : Prop :=
  ∀ b blk, f.Reachable b → f.blocks[b.index]? = some blk → blk.ReadsWithin (f.DefinedAbove b)

/-- The register is defined in one of the blocks. -/
def Function.DefinedIn (f : Function) (bs : List BlockId) (r : Reg) : Prop :=
  ∃ b ∈ bs, ∃ blk, f.blocks[b.index]? = some blk ∧ blk.Defines r

/-- In this order of the blocks, definitions come before what is read. -/
def Function.DefinedFirst (f : Function) (order : List BlockId) : Prop :=
  ∀ done b rest, order = done ++ b :: rest → ∀ blk, f.blocks[b.index]? = some blk →
    blk.ReadsWithin (f.DefinedIn done)

/-! ## Where registers are defined -/

theorem Block.definesBefore_succ {k : Nat} {i : InstData} (hi : blk.insts[k]? = some i) :
    blk.DefinesBefore (k + 1) r ↔ blk.DefinesBefore k r ∨ i.defines? = some r := by
  constructor
  · rintro (hr | ⟨j, hj, i', hi', hr⟩)
    · exact .inl (.inl hr)
    · by_cases hlast : j = k
      · subst hlast
        rw [hi] at hi'
        cases hi'
        exact .inr hr
      · exact .inl (.inr ⟨j, by omega, i', hi', hr⟩)
  · rintro ((hr | ⟨j, hj, i', hi', hr⟩) | hr)
    · exact .inl hr
    · exact .inr ⟨j, by omega, i', hi', hr⟩
    · exact .inr ⟨k, by omega, i, hi, hr⟩

theorem Block.definesBefore_zero : blk.DefinesBefore 0 r ↔ r ∈ blk.params := by simp [DefinesBefore]

theorem Block.ReadsWithin.mono {V V' : Reg → Prop} (h : blk.ReadsWithin V) (hV : ∀ r, V r → V' r) :
    blk.ReadsWithin V' where
  insts k i hi r hr := (h.insts k i hi r hr).imp_left (hV r)
  ends r hr := (h.ends r hr).imp_left (hV r)

/-- What dominates a read was met before it, as the blocks are listed after their dominators. -/
theorem Function.Listed.definedFirst (hlisted : f.Listed order) (hreads : f.ReadsDominated) :
    f.DefinedFirst order := by
  intro done b rest horder blk hblk
  have hb : f.Reachable b := (hlisted.mem_iff b).1 (by simp [horder])
  apply (hreads b blk hb hblk).mono
  rintro r ⟨a, other, ha, hne, hother, hr⟩
  exact ⟨a, hlisted.after done b rest horder a ha hne, other, hother, hr⟩

end Lir

namespace Codegen

open Lir

variable {α β : Type} {bad bad' : CodegenError → Prop} {helpers : Option HelperSet} {size : Nat}
  {d : Defined} {r : Reg} {rs : List Reg} {V V' : Reg → Prop} {blk : Block} {f : Lir.Function}
  {order : List BlockId}

/-- What a backend may object to in a block, apart from what the block reads. -/
inductive Objects (helpers : Option HelperSet) (size : Nat) (blk : Block) : CodegenError → Prop
  /-- a helper that is called is not registered -/
  | helper {i : InstData} {h : Helper} {args : List Reg} : i ∈ blk.insts → i.inst = .call h args →
      helpers.any (·.contains h) = false → Objects helpers size blk (.missingHelper h)
  /-- a register that is defined is none of the function -/
  | register {r : Reg} : blk.Defines r → size ≤ r.index → Objects helpers size blk (.untyped r)
  /-- a key of a switch is there twice -/
  | key {value : Reg} {cases : List (Int32 × BlockId)} {fallback : BlockId} {key : Int32} :
      blk.terminator = .switch value cases fallback → (cases.map (·.1)).Duplicate key →
      Objects helpers size blk (.repeatedKey key)

/-- What a backend may object to in some blocks of a function, apart from what they read. -/
def ObjectsTo (helpers : Option HelperSet) (f : Lir.Function) (bs : List BlockId) (e : CodegenError)
    : Prop :=
  ∃ b ∈ bs, ∃ blk, f.blocks[b.index]? = some blk ∧ Objects helpers f.types.size blk e

/-! ## Checks that are refused for known reasons only -/

/-- The check is refused for a reason in `bad`, or `Q` holds of its result. -/
def Lands (bad : CodegenError → Prop) (x : Except CodegenError α) (Q : α → Prop) : Prop :=
  match x with
  | .ok a => Q a
  | .error e => bad e

theorem Lands.bind {x : Except CodegenError α} {g : α → Except CodegenError β} {Q : α → Prop}
    {R : β → Prop} (hx : Lands bad x Q) (hg : ∀ a, Q a → Lands bad (g a) R) :
    Lands bad (x >>= g) R := by
  cases x with
  | error e => exact hx
  | ok a => exact hg a hx

theorem Lands.mono {x : Except CodegenError α} {Q Q' : α → Prop} (hx : Lands bad x Q)
    (hQ : ∀ a, Q a → Q' a) :
    Lands bad x Q' := by
  cases x with
  | error e => exact hx
  | ok a => exact hQ a hx

theorem Lands.weaken {x : Except CodegenError α} {Q : α → Prop} (hx : Lands bad x Q)
    (hbad : ∀ e, bad e → bad' e) :
    Lands bad' x Q := by
  cases x with
  | error e => exact hbad e hx
  | ok a => exact hx

/-- A check whose result is not asked for. -/
theorem Lands.discard {x : Except CodegenError α} {Q : α → Prop} {P : Prop} (hx : Lands bad x Q)
    (hQ : ∀ a, Q a → P) :
    Lands bad (discard x) fun _ => P := by
  cases x with
  | error e => exact hx
  | ok a => exact hQ a hx

/-- A check that is made for each element of a list, where `I` says what holds after some of them.
-/
theorem Lands.foldlM {step : β → α → Except CodegenError β} {I : List α → β → Prop} {l : List α}
    {s : β}
    (hstep : ∀ done a rest, l = done ++ a :: rest → ∀ s, I done s →
      Lands bad (step s a) (I (done ++ [a])))
    (h : I [] s) : Lands bad (l.foldlM step s) (I l) := by
  -- the induction is on what is left, behind what is done already
  suffices hrest : ∀ rest done s, l = done ++ rest → I done s → Lands bad (rest.foldlM step s) (I l)
    from
    hrest l [] s rfl h
  intro rest
  induction rest with
  | nil =>
    intro done s hl hs
    rw [List.append_nil] at hl
    rw [hl]
    exact hs
  | cons a rest ih =>
    intro done s hl hs
    rw [List.foldlM_cons]
    apply (hstep done a rest hl s hs).bind
    intro s' hs'
    exact ih (done ++ [a]) s' (by simp [hl]) hs'

/-! ## Registers that are defined -/

/-- Of the `size` registers of the function those in `V` are defined. -/
structure Knows (d : Defined) (size : Nat) (V : Reg → Prop) : Prop where
  size : d.size = size
  defined_iff : ∀ r, d[r.index]? = some true ↔ V r

theorem Knows.congr (h : Knows d size V) (hV : ∀ r, V r ↔ V' r) : Knows d size V' where
  size := h.size
  defined_iff r := (h.defined_iff r).trans (hV r)

theorem knows_none (size : Nat) : Knows (Array.replicate size false) size fun _ => False where
  size := Array.size_replicate
  defined_iff r := by simp [Array.getElem?_replicate]

theorem lands_reads (h : Knows d size V) :
    Lands (fun _ => ¬ ∀ r ∈ rs, V r) (checkReads d rs) fun _ => ∀ r ∈ rs, V r := by
  rw [checkReads]
  cases hfind : rs.find? fun r => !d[r.index]?.getD false with
  | none =>
    intro r hr
    rw [← h.defined_iff r]
    have hread := List.find?_eq_none.1 hfind r hr
    cases hd : d[r.index]? <;> simp_all
  | some r =>
    intro hall
    have hr := (h.defined_iff r).2 (hall r (List.mem_of_find?_eq_some hfind))
    have hunread := List.find?_some hfind
    simp [hr] at hunread

/-- What is read has a type, as it is defined. -/
theorem lands_typed (h : Knows d size V) :
    Lands (fun _ => ¬ V r) (checkTyped d r) fun _ => True := by
  rw [checkTyped]
  split
  · trivial
  · rename_i hout
    intro hr
    have hsome := (h.defined_iff r).2 hr
    exact hout (Array.getElem?_eq_some_iff.1 hsome).1

theorem lands_operands {inst : Inst} (h : Knows d size V) :
    Lands (fun _ => ¬ ∀ r ∈ inst.reads, V r) (checkOperands d inst) fun _ => ∀ r ∈ inst.reads,
    V r := by
  cases inst with
  | store width value addr offset =>
    rw [checkOperands]
    have htyped : Lands (fun _ => ¬ ∀ r ∈ [value, addr], V r) (checkTyped d value) fun _ => True :=
      (lands_typed h).weaken fun _ hvalue hall => hvalue (hall value (by simp))
    exact htyped.bind fun _ _ => lands_reads h
  | _ => exact lands_reads h

theorem lands_captured (h : Knows d size V) :
    Lands (fun _ => ¬ ∀ r ∈ rs, V r) (rs.forM (checkCaptured d)) fun _ => ∀ r ∈ rs, V r := by
  induction rs with
  | nil =>
    intro r hr
    cases hr
  | cons r rs ih =>
    show Lands _ (do checkCaptured d r; rs.forM (checkCaptured d)) _
    have hfirst : Lands (fun _ => ¬ ∀ r' ∈ r :: rs, V r') (checkCaptured d r) fun _ => V r := by
      rw [checkCaptured]
      apply Lands.bind (Q := fun _ => True)
      · exact (lands_typed h).weaken fun _ hr hall => hr (hall r List.mem_cons_self)
      · intro _ _
        apply ((lands_reads h).mono fun _ hr => hr r (List.mem_singleton.2 rfl)).weaken
        intro _ hr hall
        exact hr fun r' hr' => hall r' (List.mem_singleton.1 hr' ▸ List.mem_cons_self)
    apply hfirst.bind
    intro _ hr
    apply (ih.mono fun _ hrest => List.forall_mem_cons.2 ⟨hr, hrest⟩).weaken
    intro _ hrest hall
    exact hrest fun r' hr' => hall r' (List.mem_cons_of_mem _ hr')

/-- A definition is added to those that there are. -/
theorem lands_define (h : Knows d size V) (hbad : size ≤ r.index → bad (.untyped r)) :
    Lands bad (define d r) (Knows · size fun r' => V r' ∨ r' = r) := by
  rw [define, checkTyped]
  by_cases hlt : r.index < d.size
  · rw [if_pos hlt]
    show Knows (d.setIfInBounds r.index true) size _
    refine ⟨by simpa using h.size, fun r' => ?_⟩
    rw [Array.getElem?_setIfInBounds]
    by_cases heq : r.index = r'.index
    · obtain rfl := Reg.eq_of_index heq
      simp [hlt]
    · have hne : r' ≠ r := fun he => heq (by rw [he])
      rw [if_neg heq, h.defined_iff, or_iff_left hne]
  · rw [if_neg hlt]
    apply hbad
    have hsize := h.size
    omega

theorem lands_params (h : Knows d size V) (hbad : ∀ r ∈ rs, size ≤ r.index → bad (.untyped r)) :
    Lands bad (rs.foldlM define d) (Knows · size fun r => V r ∨ r ∈ rs) := by
  apply Lands.foldlM (I := fun done d => Knows d size fun r => V r ∨ r ∈ done)
  · intro done r rest hrs d hd
    apply (lands_define hd (hbad r (by simp [hrs]))).mono
    intro d' hd'
    apply hd'.congr
    intro r'
    simp [or_assoc]
  · exact h.congr (by simp)

/-! ## Blocks -/

theorem lands_helper {i : InstData} (hi : i ∈ blk.insts) :
    Lands (Objects helpers size blk) (checkHelper helpers i.inst) fun _ => True := by
  cases hinst : i.inst with
  | call h args =>
    rw [checkHelper]
    split
    · trivial
    · rename_i hnot
      exact .helper hi hinst (by simpa using hnot)
  | _ => trivial

/-- An instruction that is taken reads what is defined, and defines its own register. -/
theorem lands_inst (helpers : Option HelperSet) {i : InstData} (hi : i ∈ blk.insts)
    (h : Knows d size V) (hdefines : ∀ r, i.defines? = some r → blk.Defines r) :
    Lands (fun e => Objects helpers size blk e ∨ ¬ ∀ r ∈ i.inst.reads, V r) (checkInst helpers d i)
      fun d' => (∀ r ∈ i.inst.reads, V r) ∧ Knows d' size fun r => V r ∨ i.defines? = some r := by
  rw [checkInst]
  apply ((lands_helper hi).weaken fun _ => .inl).bind
  intro _ _
  apply ((lands_operands h).weaken fun _ => .inr).bind
  intro _ hreads
  cases hdef : i.defines? with
  | none => exact ⟨hreads, h.congr (by simp)⟩
  | some r =>
    have hdefine : Lands (Objects helpers size blk) (define d r) (Knows · size fun r' => V r' ∨
      r' = r) :=
      lands_define h fun hout => .register (hdefines r hdef) hout
    apply (hdefine.weaken fun _ => .inl).mono
    intro d' hd'
    exact ⟨hreads, hd'.congr (by simp [eq_comm])⟩

theorem lands_insts (h : Knows d size fun r => V r ∨ r ∈ blk.params) :
    Lands (fun e => Objects helpers size blk e ∨ ¬ blk.ReadsWithin V)
      (blk.insts.foldlM (checkInst helpers) d)
      fun d' => (∀ (k : Nat) i, blk.insts[k]? = some i → ∀ r ∈ i.inst.reads, V r ∨
        blk.DefinesBefore k r) ∧
        Knows d' size fun r => V r ∨ blk.Defines r := by
  rw [← Array.foldlM_toList]
  have hfold : Lands (fun e => Objects helpers size blk e ∨ ¬ blk.ReadsWithin V)
    (blk.insts.toList.foldlM (checkInst helpers) d)
      fun d' => (∀ k < blk.insts.toList.length, ∀ i, blk.insts[k]? = some i → ∀ r ∈ i.inst.reads,
        V r ∨ blk.DefinesBefore k r) ∧
        Knows d' size fun r => V r ∨ blk.DefinesBefore blk.insts.toList.length r := by
    apply Lands.foldlM (I := fun done d' =>
      (∀ k < done.length, ∀ i, blk.insts[k]? = some i → ∀ r ∈ i.inst.reads, V r ∨
        blk.DefinesBefore k r) ∧
        Knows d' size fun r => V r ∨ blk.DefinesBefore done.length r)
    · rintro done i rest hinsts d ⟨hdone, hd⟩
      have hi : blk.insts[done.length]? = some i := by simp [← Array.getElem?_toList, hinsts]
      have hlt : done.length < blk.insts.size := (Array.getElem?_eq_some_iff.1 hi).1
      have hinst := lands_inst helpers (Array.mem_of_getElem? hi) hd fun r hr =>
        .inr ⟨_, hlt, i, hi, hr⟩
      apply (hinst.weaken _).mono
      · rintro d' ⟨hreads, hd'⟩
        rw [List.length_append, List.length_singleton]
        constructor
        · intro k hk i' hi'
          by_cases hlast : k = done.length
          · subst hlast
            rw [hi] at hi'
            cases hi'
            exact hreads
          · exact hdone k (by omega) i' hi'
        · apply hd'.congr
          intro r
          rw [Block.definesBefore_succ hi, or_assoc]
      · rintro e (he | hunread)
        · exact .inl he
        · exact .inr fun hwithin => hunread (hwithin.insts _ i hi)
    · exact ⟨nofun, h.congr fun r => by rw [List.length_nil, Block.definesBefore_zero]⟩
  apply hfold.mono
  rintro d' ⟨hreads, hd'⟩
  refine ⟨fun k i hi => hreads k ?_ i hi, hd'⟩
  exact (Array.getElem?_eq_some_iff.1 hi).1

/-- A key is refused that is in the table already or that a case has once more. -/
theorem foldlM_enter_refused {cases : List (Int32 × BlockId)} {t : SwitchTable} {e : CodegenError}
    (h : cases.foldlM SwitchTable.enter t = .error e) :
    ∃ key, e = .repeatedKey key ∧ key ∈ cases.map (·.1) ∧
      (key.toUInt32 ∈ t ∨ (cases.map (·.1)).Duplicate key) := by
  induction cases generalizing t with
  | nil => cases h
  | cons c cases ih =>
    rw [List.foldlM_cons, SwitchTable.enter] at h
    split at h
    · rename_i hc
      cases h
      exact ⟨c.1, rfl, List.mem_cons_self, .inl (Std.TreeMap.mem_iff_contains.2 hc)⟩
    · obtain ⟨key, rfl, hkey, htwice⟩ := ih h
      refine ⟨key, rfl, List.mem_cons_of_mem _ hkey, ?_⟩
      rcases htwice with ht | htwice
      · by_cases hc : c.1 = key
        · right
          subst hc
          exact .cons_mem hkey
        · left
          by_contra hnot
          exact notMem_insert.2 ⟨hc, hnot⟩ ht
      · exact .inr (.cons_duplicate htwice)

theorem switchTable_refused {cases : List (Int32 × BlockId)} {e : CodegenError}
    (h : switchTable cases = .error e) :
    ∃ key, e = .repeatedKey key ∧ (cases.map (·.1)).Duplicate key := by
  obtain ⟨key, he, -, htwice⟩ := foldlM_enter_refused h
  exact ⟨key, he, htwice.resolve_left Std.TreeMap.not_mem_emptyc⟩

theorem lands_terminator (helpers : Option HelperSet) (h : Knows d size V) :
    Lands (fun e => Objects helpers size blk e ∨ ¬ ∀ r ∈ blk.terminator.reads, V r)
      (checkTerminator d blk.terminator)
      fun _ => ∀ r ∈ blk.terminator.reads, V r := by
  cases hterm : blk.terminator with
  | switch value cases fallback =>
    rw [checkTerminator]
    apply ((lands_reads h).weaken fun _ => .inr).bind
    intro _ hreads
    apply Lands.discard (Q := fun _ => ∀ r ∈ _, V r) _ fun _ hd => hd
    cases htable : switchTable cases with
    | ok table => exact hreads
    | error e =>
      obtain ⟨key, rfl, htwice⟩ := switchTable_refused htable
      exact .inl (.key hterm htwice)
  | exit e values => exact (lands_captured h).weaken fun _ => .inr
  | unreachable =>
    intro r hr
    cases hr
  | _ => exact (lands_reads h).weaken fun _ => .inr

/-- A block that is taken reads what is defined, and adds its own definitions. -/
theorem lands_block (helpers : Option HelperSet) (h : Knows d size V) :
    Lands (fun e => Objects helpers size blk e ∨ ¬ blk.ReadsWithin V) (checkBlock helpers d blk)
      fun d' => blk.ReadsWithin V ∧ Knows d' size fun r => V r ∨ blk.Defines r := by
  rw [checkBlock]
  apply (lands_params h fun r hr hout => .inl (.register (.inl hr) hout)).bind
  intro d₁ h₁
  apply (lands_insts h₁).bind
  rintro d₂ ⟨hinsts, h₂⟩
  have hends : Lands (fun e => Objects helpers size blk e ∨ ¬ blk.ReadsWithin V)
    (checkTerminator d₂ blk.terminator)
      fun _ => ∀ r ∈ blk.terminator.reads, V r ∨ blk.Defines r := by
    apply (lands_terminator helpers h₂).weaken
    rintro e (he | hunread)
    · exact .inl he
    · exact .inr fun hwithin => hunread hwithin.ends
  apply hends.bind
  intro _ hreads
  exact ⟨⟨hinsts, hreads⟩, h₂⟩

/-! ## Functions -/

theorem definedIn_snoc {done : List BlockId} {b : BlockId} (hblk : f.blocks[b.index]? = some blk) :
    f.DefinedIn (done ++ [b]) r ↔ f.DefinedIn done r ∨ blk.Defines r := by
  simp [Function.DefinedIn, or_and_right, exists_or, hblk]

theorem definedIn_snoc_none {done : List BlockId} {b : BlockId} (hblk : f.blocks[b.index]? = none) :
    f.DefinedIn (done ++ [b]) r ↔ f.DefinedIn done r := by
  simp [Function.DefinedIn, or_and_right, exists_or, hblk]

theorem definedFirst_snoc {done : List BlockId} {b : BlockId} (hdone : f.DefinedFirst done)
    (hb : ∀ blk, f.blocks[b.index]? = some blk → blk.ReadsWithin (f.DefinedIn done)) :
    f.DefinedFirst (done ++ [b]) := by
  intro l₁ c l₂ hsplit
  rcases List.eq_nil_or_concat l₂ with rfl | ⟨l, x, rfl⟩
  · obtain ⟨rfl, hlast⟩ := List.append_inj' hsplit rfl
    obtain rfl := List.singleton_inj.1 hlast
    exact hb
  · rw [List.concat_eq_append, ← List.cons_append, ← List.append_assoc] at hsplit
    exact hdone l₁ c l (List.append_inj' hsplit rfl).1

/-- The backend takes the blocks only if definitions come first, and then objects to nothing that is
read. -/
theorem lands_check (helpers : Option HelperSet) (f : Lir.Function) (order : List BlockId) :
    Lands (fun e => ObjectsTo helpers f order e ∨ ¬ f.DefinedFirst order) (check helpers f order)
    fun _ => f.DefinedFirst order := by
  rw [check, List.foldlM_filterMap]
  apply Lands.discard (Q := fun d => f.DefinedFirst order ∧
    Knows d f.types.size (f.DefinedIn order)) _ fun _ => And.left
  apply Lands.foldlM (I := fun done d => f.DefinedFirst done ∧
    Knows d f.types.size (f.DefinedIn done))
  · rintro done b rest horder d ⟨hdone, hd⟩
    cases hblk : f.blocks[b.index]? with
    | none =>
      exact ⟨definedFirst_snoc hdone (by simp [hblk]),
        hd.congr fun r => (definedIn_snoc_none hblk).symm⟩
    | some blk =>
      apply ((lands_block helpers hd).weaken _).mono
      · rintro d' ⟨hreads, hd'⟩
        refine ⟨definedFirst_snoc hdone fun blk' hblk' => ?_,
          hd'.congr fun r => (definedIn_snoc hblk).symm⟩
        rw [hblk] at hblk'
        cases hblk'
        exact hreads
      · rintro e (he | hunread)
        · exact .inl ⟨b, by simp [horder], blk, hblk, he⟩
        · exact .inr fun hfirst => hunread (hfirst done b rest horder blk hblk)
  · exact ⟨fun l₁ b l₂ h =>
      by simp at h, (knows_none _).congr fun r => by simp [Function.DefinedIn]⟩

/-- The search lists the blocks that control can come to, each once and after those that dominate
it, or stops at one that does not exist. If whatever is read has a definition that dominates the
read, the backend meets no register before its definition when it takes the blocks in this order:
what it still may object to are not reads. It would find out if it met one. -/
theorem reads_after_definitions (f : Lir.Function) :
    (f.BlocksExist → ∃ order, f.reachableBlocks = .ok order ∧ f.Listed order ∧
      (f.ReadsDominated → f.DefinedFirst order ∧ ∀ helpers,
        (∀ r, check helpers f order ≠ .error (.undefined r)) ∧
        ∀ e, check helpers f order = .error e → ObjectsTo helpers f order e) ∧
      ∀ helpers, check helpers f order = .ok () → f.DefinedFirst order) ∧
    (¬ f.BlocksExist → f.reachableBlocks = .error .outOfRange) := by
  obtain ⟨hlists, hstops⟩ := f.reachableBlocks_listed
  refine ⟨fun hexist => ?_, hstops⟩
  obtain ⟨order, horder, hlisted⟩ := hlists hexist
  refine ⟨order, horder, hlisted, fun hreads => ?_, fun helpers hok => ?_⟩
  · have hfirst := hlisted.definedFirst hreads
    refine ⟨hfirst, fun helpers => ?_⟩
    have hobjects (e : CodegenError) (he : check helpers f order = .error e) : ObjectsTo helpers f
      order e := by
      have hlands := lands_check helpers f order
      rw [he] at hlands
      exact hlands.resolve_right (not_not_intro hfirst)
    refine ⟨fun r hr => ?_, hobjects⟩
    obtain ⟨b, -, blk, -, hnone⟩ := hobjects _ hr
    cases hnone
  · have hlands := lands_check helpers f order
    rwa [hok] at hlands

/-- A loop over blocks 3 and 1, in this order, and a block that nothing leads to. -/
def rotated : Lir.Function where
  name := "rotated"
  blocks := #[
    { insts := #[⟨.iconst .i32 1, some ⟨0⟩⟩, ⟨.iconst .i64 7, some ⟨1⟩⟩],
      terminator := .branch ⟨0⟩ ⟨3⟩ [] ⟨2⟩ [⟨1⟩] .normal },
    { insts := #[⟨.binary .sub .i32 ⟨2⟩ ⟨0⟩, some ⟨3⟩⟩],
      terminator := .branch ⟨3⟩ ⟨3⟩ [] ⟨2⟩ [⟨1⟩] .normal },
    { params := [⟨4⟩], terminator := .ret ⟨4⟩ },
    { insts := #[⟨.iconst .i32 1, some ⟨2⟩⟩], terminator := .jump ⟨1⟩ [] },
    { terminator := .ret ⟨5⟩ }]
  types := #[.i32, .i64, .i32, .i32, .i64, .i64]

theorem rotated_blocksExist : rotated.BlocksExist :=
  Lir.Function.blocksExist_of_successors (by decide) (by decide)

/-- Control comes to the second block of the loop from the first one only. -/
theorem rotated_dominates : rotated.Dominates ⟨3⟩ ⟨1⟩ := by
  apply Lir.Function.dominates_of_predecessor (by decide)
  rintro ⟨_ | _ | _ | _ | _ | n⟩ hu
  all_goals simp [Function.successors, rotated, Terminator.successors] at hu
  rfl

theorem rotated_readsDominated : rotated.ReadsDominated := by
  have hblocks (b : BlockId) (hb : rotated.Reachable b) : b = ⟨0⟩ ∨ b = ⟨3⟩ ∨ b = ⟨1⟩ ∨
    b = ⟨2⟩ := by
    obtain ⟨order, horder, hlisted⟩ := rotated.reachableBlocks_listed.1 rotated_blocksExist
    rw [show rotated.reachableBlocks = .ok [⟨0⟩, ⟨3⟩, ⟨1⟩, ⟨2⟩] by decide +kernel] at horder
    cases horder
    simpa using (hlisted.mem_iff b).2 hb
  -- the registers of the entry, and the one that the first block of the loop defines for the second
  have hentry {b : BlockId} {r : Reg} (hb : ⟨0⟩ ≠ b) (hr : r = ⟨0⟩ ∨ r = ⟨1⟩) : rotated.DefinedAbove
    b r := by
    refine ⟨⟨0⟩, _, rotated.dominates_entry b, hb, rfl, .inr ?_⟩
    rcases hr with rfl | rfl
    · exact ⟨0, by decide, _, rfl, rfl⟩
    · exact ⟨1, by decide, _, rfl, rfl⟩
  have hloop : rotated.DefinedAbove ⟨1⟩ ⟨2⟩ :=
    ⟨⟨3⟩, _, rotated_dominates, by decide, rfl, .inr ⟨0, by decide, _, rfl, rfl⟩⟩
  intro b blk hb hblk
  rcases hblocks b hb with rfl | rfl | rfl | rfl
  all_goals obtain rfl := Option.some.inj hblk
  · constructor
    · rintro (_ | _ | k) i hi r hr
      · cases hi
        cases hr
      · cases hi
        cases hr
      · cases hi
    · intro r hr
      change r ∈ [⟨0⟩, ⟨1⟩] at hr
      obtain rfl | rfl : r = ⟨0⟩ ∨ r = ⟨1⟩ := by simpa using hr
      · exact .inr (.inr ⟨0, by decide, _, rfl, rfl⟩)
      · exact .inr (.inr ⟨1, by decide, _, rfl, rfl⟩)
  · constructor
    · rintro (_ | k) i hi r hr
      · cases hi
        cases hr
      · cases hi
    · exact nofun
  · constructor
    · rintro (_ | k) i hi r hr
      · cases hi
        change r ∈ [⟨2⟩, ⟨0⟩] at hr
        obtain rfl | rfl : r = ⟨2⟩ ∨ r = ⟨0⟩ := by simpa using hr
        · exact .inl hloop
        · exact .inl (hentry (by decide) (.inl rfl))
      · cases hi
    · intro r hr
      change r ∈ [⟨3⟩, ⟨1⟩] at hr
      obtain rfl | rfl : r = ⟨3⟩ ∨ r = ⟨1⟩ := by simpa using hr
      · exact .inr (.inr ⟨0, by decide, _, rfl, rfl⟩)
      · exact .inl (hentry (by decide) (.inr rfl))
  · constructor
    · intro k i hi
      cases hi
    · intro r hr
      exact .inr (.inl hr)

/-- The second block of the loop reads what the first one defines. In the order of the blocks in the
table it would come too early. -/
theorem reads_after_definitions_rotated :
    rotated.BlocksExist ∧ rotated.ReadsDominated ∧ rotated.reachableBlocks = .ok [⟨0⟩, ⟨3⟩, ⟨1⟩,
      ⟨2⟩] ∧
      rotated.Listed [⟨0⟩, ⟨3⟩, ⟨1⟩, ⟨2⟩] ∧
      (∀ r, check none rotated [⟨0⟩, ⟨3⟩, ⟨1⟩, ⟨2⟩] ≠ .error (.undefined r)) ∧
      check none rotated [⟨0⟩, ⟨3⟩, ⟨1⟩, ⟨2⟩] = .ok () ∧
      check none rotated [⟨0⟩, ⟨1⟩, ⟨2⟩, ⟨3⟩] = .error (.undefined ⟨2⟩) ∧
      ¬ ({ name := "blank" } : Lir.Function).BlocksExist ∧
      ({ name := "blank" } : Lir.Function).reachableBlocks = .error .outOfRange := by
  have horder : rotated.reachableBlocks = .ok [⟨0⟩, ⟨3⟩, ⟨1⟩, ⟨2⟩] := by decide +kernel
  have hblank : ¬ ({ name := "blank" } : Lir.Function).BlocksExist :=
    fun h => absurd (h ⟨0⟩ ⟨_, .entry⟩) (by decide)
  obtain ⟨order, hok, hlisted, htranslated⟩ :=
    (reads_after_definitions rotated).1 rotated_blocksExist
  rw [horder] at hok
  cases hok
  exact ⟨rotated_blocksExist, rotated_readsDominated, horder, hlisted,
    ((htranslated.1 rotated_readsDominated).2 none).1,
    by decide +kernel, by decide +kernel, hblank, (reads_after_definitions _).2 hblank⟩

end Codegen

end SpecJit
