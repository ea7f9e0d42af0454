import Mathlib.Data.List.Nodup
import SpecJit.Codegen
import SpecJit.Proofs.Lowering.Exits.Record
import SpecJit.Proofs.Lowering.Switch.Strings
import SpecJit.Proofs.Results

/-!
# Keys of switches

A switch of the low-level code goes to the first case with the key. A native switch is a table,
which has one entry for each key and does not take a second one (`Codegen.switchTable_ok_iff`).
Wherever there is a table the two agree (`Codegen.stepTerminator_switch`).

`Unambiguous x`: wherever the step `x` ends a block by a switch, no two cases have the same key.
This is a law that holds of all steps that end no block by a switch. What is left are the four
places where a switch of the graph becomes one of the code. Their keys are the numbers of
cases, each once (`nodup_numberCases`), the places of cases in their list (`nodup_places`), and the
lengths and the characters of groups of cases, which are lists of keys that are each there once
(`unambiguous_dispatch`).
-/

namespace SpecJit

open Lir

/-! ## Native switches -/

namespace Codegen

variable {σ : Type} {t t' table : SwitchTable} {cases : List (Int32 × BlockId)}
  {c : Int32 × BlockId}

theorem enter_ok_iff : t.enter c = .ok t' ↔ c.1.toUInt32 ∉ t ∧ t.insert c.1.toUInt32 c.2 = t' := by
  rw [SwitchTable.enter]
  by_cases h : c.1.toUInt32 ∈ t <;> simp [h]

theorem toUInt32_inj {m n : Int32} : m.toUInt32 = n.toUInt32 ↔ m = n :=
  ⟨fun h => by simpa using congrArg UInt32.toInt32 h, congrArg _⟩

theorem notMem_insert {key key' : Int32} {block : BlockId} :
    key'.toUInt32 ∉ t.insert key.toUInt32 block ↔ key ≠ key' ∧ key'.toUInt32 ∉ t := by
  rw [Std.TreeMap.mem_insert, not_or, Std.LawfulEqCmp.compare_eq_iff_eq, toUInt32_inj]

/-- Entries are added as long as their keys are new. -/
theorem foldlM_enter_ok_iff : (∃ t', cases.foldlM SwitchTable.enter t = .ok t') ↔
    (cases.map (·.1)).Nodup ∧ ∀ c ∈ cases, c.1.toUInt32 ∉ t := by
  induction cases generalizing t with
  | nil => exact ⟨fun _ => ⟨.nil, nofun⟩, fun _ => ⟨t, rfl⟩⟩
  | cons c cases ih =>
    rw [List.foldlM_cons]
    by_cases hc : c.1.toUInt32 ∈ t
    · have hrefused : t.enter c = .error (.repeatedKey c.1) := by simp [SwitchTable.enter, hc]
      rw [hrefused]
      exact ⟨nofun, fun h => absurd hc (h.2 c (by simp))⟩
    · rw [enter_ok_iff.2 ⟨hc, rfl⟩]
      refine (ih (t := t.insert c.1.toUInt32 c.2)).trans ?_
      simp only [notMem_insert, List.map_cons, List.nodup_cons, List.mem_map, List.forall_mem_cons]
      constructor
      · rintro ⟨hnodup, h⟩
        exact ⟨⟨fun ⟨d, hd, he⟩ => (h d hd).1 he.symm, hnodup⟩, hc, fun d hd => (h d hd).2⟩
      · rintro ⟨⟨hfirst, hnodup⟩, -, h⟩
        exact ⟨hnodup, fun d hd => ⟨fun he => hfirst ⟨d, hd, he.symm⟩, h d hd⟩⟩

/-- A switch is taken if no key is there twice, and refused otherwise. -/
theorem switchTable_ok_iff :
    (∃ table, switchTable cases = .ok table) ↔ (cases.map (·.1)).Nodup := by
  refine foldlM_enter_ok_iff.trans ⟨And.left, fun h => ⟨h, fun _ _ => Std.TreeMap.not_mem_emptyc⟩⟩

/-- The entries of a table are those that it had and, for other keys, the first cases with them. -/
theorem getD_foldlM_enter (h : cases.foldlM SwitchTable.enter t = .ok t') (key : Int32)
    (fallback : BlockId) :
    t'.getD key.toUInt32 fallback = (cases.lookup key).getD (t.getD key.toUInt32 fallback) := by
  induction cases generalizing t with
  | nil =>
    cases h
    rfl
  | cons c cases ih =>
    rw [List.foldlM_cons] at h
    obtain ⟨t₁, h₁, h⟩ := bind_eq_ok_iff.1 h
    obtain ⟨-, rfl⟩ := enter_ok_iff.1 h₁
    rw [ih h, Std.TreeMap.getD_insert, List.lookup_cons]
    by_cases hkey : key = c.1
    · subst hkey
      -- no other case has the key
      have hlater := (foldlM_enter_ok_iff.1 ⟨t', h⟩).2
      have hnone : cases.lookup c.1 = none :=
        List.lookup_eq_none_iff.2 fun d hd => bne_iff_ne.2 (notMem_insert.1 (hlater d hd)).1
      simp [hnone]
    · have hne : c.1.toUInt32 ≠ key.toUInt32 := fun he => hkey (toUInt32_inj.1 he).symm
      rw [if_neg (by simpa using hne), beq_eq_false_iff_ne.2 hkey]

/-- A native switch goes where the switch goes that it is made of. -/
theorem stepTerminator_switch (h : switchTable cases = .ok table) {m : Machine σ} {c : Config σ}
    {value : Reg} {w : Word} (hvalue : c.read value = .ok w) (fallback : BlockId) :
    m.stepTerminator c (.switch value cases fallback) =
      (m.enter c (table.target fallback w) []).map .running := by
  have htarget : table.target fallback w = (cases.lookup (low32 w)).getD fallback :=
    getD_foldlM_enter h (low32 w) fallback
  rw [htarget, Machine.stepTerminator, hvalue]
  rfl

end Codegen

/-! ## Blocks without an ambiguous switch -/

namespace Lir

/-- No two cases of a switch have the same key. -/
def Terminator.Unambiguous : Terminator → Prop
  | .switch _ cases _ => (cases.map (·.1)).Nodup
  | _ => True

namespace Builder

variable {b b' b'' b₁ : Builder} {i : Nat} {t : Terminator}

/-- A block of `b'` ends unambiguously, or it is as far as it was in `b`, and ends as it did there.
-/
def EndsUnambiguously (b b' : Builder) : Prop :=
  ∀ i blk', b'.func.blocks[i]? = some blk' → blk'.terminator.Unambiguous ∨
    (b'.IsClosed i → b.IsClosed i) ∧ ∃ blk, b.func.blocks[i]? = some blk ∧
    blk.terminator = blk'.terminator

theorem EndsUnambiguously.refl (b : Builder) : b.EndsUnambiguously b :=
  fun _ blk h => .inr ⟨id, blk, h, rfl⟩

theorem EndsUnambiguously.trans (h₁ : b.EndsUnambiguously b') (h₂ : b'.EndsUnambiguously b'') :
    b.EndsUnambiguously b'' := by
  intro i blk'' h
  obtain ht | ⟨hc, blk', h', he⟩ := h₂ i blk'' h
  · exact .inl ht
  · obtain ht | ⟨hc', blk, h, he'⟩ := h₁ i blk' h'
    · exact .inl (he ▸ ht)
    · exact .inr ⟨hc' ∘ hc, blk, h, he'.trans he⟩

theorem EndsUnambiguously.ended {blk : Block} (h : b.EndsUnambiguously b') (hc : b'.IsClosed i)
    (hnot : ¬ b.IsClosed i) (hblk : b'.func.blocks[i]? = some blk) : blk.terminator.Unambiguous :=
  (h i blk hblk).resolve_right fun hold => hnot (hold.1 hc)

theorem endsUnambiguously_goTo (b : Builder) (p : BlockId) : b.EndsUnambiguously (b.goTo p) :=
  .refl b

theorem endsUnambiguously_addReg (b : Builder) (ty : Ty) : b.EndsUnambiguously (b.addReg ty) :=
  .refl b

theorem endsUnambiguously_addBlock (b : Builder) (cold : Bool) :
    b.EndsUnambiguously (b.addBlock cold) := by
  intro i blk h
  by_cases hi : i = b.func.blocks.size
  · subst hi
    simp only [addBlock, Array.getElem?_push_size, Option.some.injEq] at h
    subst h
    exact .inl trivial
  · refine .inr ⟨(addBlock_isClosed cold).1, blk, ?_, rfl⟩
    simpa [addBlock, Array.getElem?_push, hi] using h

theorem endsUnambiguously_change (b : Builder) (p : BlockId) {f : Block → Block}
    (hf : ∀ blk, (f blk).terminator = blk.terminator) : b.EndsUnambiguously (b.change p f) := by
  intro i blk h
  by_cases hi : p.index = i
  · subst hi
    simp only [change, Array.getElem?_modify, ↓reduceIte, Option.map_eq_some_iff] at h
    obtain ⟨blk₀, h₀, rfl⟩ := h
    exact .inr ⟨id, blk₀, h₀, (hf blk₀).symm⟩
  · exact .inr ⟨id, blk, (change_getElem? hi).symm.trans h, rfl⟩

theorem endsUnambiguously_addInst (b : Builder) (d : InstData) :
    b.EndsUnambiguously (b.addInst d) :=
  b.endsUnambiguously_change b.current fun _ => rfl

theorem endsUnambiguously_close (b : Builder) (ht : t.Unambiguous) :
    b.EndsUnambiguously (b.close t) := by
  intro i blk h
  by_cases hi : b.current.index = i
  · subst hi
    simp only [close, Array.getElem?_modify, ↓reduceIte, Option.map_eq_some_iff] at h
    obtain ⟨_, -, rfl⟩ := h
    exact .inl ht
  · refine .inr ⟨fun hc => ?_, blk, ?_, rfl⟩
    · unfold IsClosed close at hc
      rwa [Array.getElem?_setIfInBounds_ne hi] at hc
    · simpa [close, Array.getElem?_modify, hi] using h

theorem EndsUnambiguously.opened (h : b.Opened b₁) : b.EndsUnambiguously b₁ := by
  cases h with
  | same => exact .refl b
  | fresh => exact (b.endsUnambiguously_addBlock false).trans (endsUnambiguously_goTo _ _)

theorem EndsUnambiguously.setsAside {K : List (Reg × Int64)} (h : b.SetsAside K b₁) :
    b.EndsUnambiguously b₁ := by
  induction h with
  | refl => exact .refl _
  | step ho _ ih =>
    exact ((EndsUnambiguously.opened ho).trans
      ((endsUnambiguously_addReg _ _).trans (endsUnambiguously_addInst _ _))).trans ih

/-- No step makes an ambiguous switch. -/
def distinguishing : Law where
  rel := EndsUnambiguously
  refl := .refl
  trans := .trans

end Builder

theorem Terminator.Unambiguous.of_isSimple {t : Terminator} (ht : t.isSimple = true) :
    t.Unambiguous := by
  cases t with
  | switch => cases ht
  | _ => trivial

namespace Emit

instance : Rebuilding Builder.distinguishing where
  define {ty inst r b b'} h := by
    obtain ⟨b₁, h₁, rfl, rfl⟩ := define_ok h
    exact (Builder.EndsUnambiguously.opened (ensureOpen_opened h₁)).trans
      ((b₁.endsUnambiguously_addReg ty).trans (Builder.endsUnambiguously_addInst _ _))
  store {width value addr offset u b b'} h := by
    obtain ⟨_, b₁, h₁, h⟩ := bind_ok h
    rw [push_ok h]
    exact (Builder.EndsUnambiguously.opened (ensureOpen_opened h₁)).trans
      (b₁.endsUnambiguously_addInst _)
  terminate {t u b b'} ht h := by
    obtain ⟨b₁, h₁, rfl⟩ := terminate_ok h
    exact (Builder.EndsUnambiguously.opened (ensureOpen_opened h₁)).trans
      (b₁.endsUnambiguously_close (.of_isSimple ht))
  createBlock {cold id b b'} h := by
    rw [(createBlock_ok h).2]
    exact b.endsUnambiguously_addBlock cold
  switchTo {p u b b'} h := by
    rw [switchTo_ok h]
    exact b.endsUnambiguously_goTo p
  blockParam {p ty r b b'} h := by
    rw [(blockParam_ok h).2]
    exact (b.endsUnambiguously_addReg ty).trans ((b.addReg ty).endsUnambiguously_change p
      fun _ => rfl)

theorem obeys_switch (value : Reg) {cases : List (Int32 × BlockId)} (fallback : BlockId)
    (h : (cases.map (·.1)).Nodup) : Obeys Builder.distinguishing (switch value cases fallback) where
  obeys b u b' hok := by
    obtain ⟨b₁, h₁, rfl⟩ := terminate_ok hok
    exact (Builder.EndsUnambiguously.opened (ensureOpen_opened h₁)).trans
      (b₁.endsUnambiguously_close h)

end Emit

end Lir

/-! ## Lowering steps -/

namespace Lowering

variable {α β : Type} {env : Env} {s s' : State}

/-- A lowering step that makes no ambiguous switch. -/
abbrev Unambiguous (x : Lower α) : Prop := Obeys (onBuilders Builder.distinguishing) x

/-- An exit puts constants aside, and ends no block itself. -/
instance : (onBuilders Builder.distinguishing).Rebuilds where
  rebuilding := inferInstance
  captures kind profile := ⟨fun env s a s' h => by
    obtain ⟨K, c, e, s₁, hrecords, -, -, rfl⟩ := buildExit_records h
    obtain ⟨xs, hcollects, -⟩ := hrecords.collects
    exact .setsAside hcollects.aside⟩

/-! ## Keys -/

theorem nodup_firstOfEach {κ : Type} [BEq κ] [LawfulBEq κ] (key : α → κ) (l : List α) :
    ((firstOfEach key l).map key).Nodup := by
  induction l with
  | nil => exact .nil
  | cons a l ih =>
    rw [firstOfEach, List.map_cons, List.nodup_cons]
    refine ⟨fun ha => ?_, ih.sublist (List.filter_sublist.map key)⟩
    obtain ⟨b, hb, he⟩ := List.mem_map.1 ha
    simpa [he] using (List.mem_filter.1 hb).2

theorem nodup_sortedKeys (keys : List Nat) : (sortedKeys keys).Nodup := by
  rw [sortedKeys, (List.mergeSort_perm _ _).nodup_iff]
  simpa using nodup_firstOfEach id keys

/-- Different numbers of 32 bits are different keys. -/
theorem nodup_map_ofNat {keys : List Nat} (h : keys.Nodup) (hlt : ∀ k ∈ keys, k < 0x100000000) :
    (keys.map Int32.ofNat).Nodup :=
  h.map_on fun a ha b hb he => ofNat_inj (hlt a ha) (hlt b hb) he

theorem nodup_numberCases (data : SwitchData) (targets : Targets) :
    ((numberCases data targets).map (·.1)).Nodup :=
  nodup_firstOfEach _ _

theorem nodup_places {cases : List SwitchCase} (f : SwitchCase → BlockId)
    (h : cases.length ≤ 0x100000000) :
    ((cases.zipIdx.map fun (c, i) => (Int32.ofNat i, f c)).map (·.1)).Nodup := by
  have hkeys : (cases.zipIdx.map fun (c, i) => (Int32.ofNat i, f c)).map (·.1) =
      (List.range' 0 cases.length).map Int32.ofNat := by
    rw [← List.zipIdx_map_snd, List.map_map, List.map_map]
    rfl
  rw [hkeys]
  refine nodup_map_ofNat List.nodup_range' fun k hk => ?_
  have := List.mem_range'_1.1 hk
  omega

theorem nodup_byLength (cases : List StringCase) : ((byLength cases).map (·.1)).Nodup := by
  rw [byLength, List.map_map]
  simpa [Function.comp_def] using nodup_sortedKeys (cases.map (·.rest.length))

theorem nodup_byCharacter (cases : List StringCase) : ((byCharacter cases).map (·.1)).Nodup := by
  rw [byCharacter, List.map_map]
  simpa [Function.comp_def] using nodup_sortedKeys (cases.filterMap fun c => c.rest.head?.map
    UInt8.toNat)

/-- What is known of each single result is known of the list of them. -/
theorem mapM_map_eq {γ : Type} {f : α → Lower β} {g : β → γ} {key : α → γ} {l : List α}
    {bs : List β} (hf : ∀ a s b s', f a env s = .ok (b, s') → g b = key a)
    (h : l.mapM f env s = .ok (bs, s')) : bs.map g = l.map key := by
  induction l generalizing s bs with
  | nil =>
    cases h
    rfl
  | cons a l ih =>
    rw [List.mapM_cons] at h
    obtain ⟨b, s₁, h₁, h⟩ := bind_ok h
    obtain ⟨bs', s₂, h₂, h⟩ := bind_ok h
    cases h
    rw [List.map_cons, List.map_cons, hf a s b s₁ h₁, ih h₂]

/-- A block is made for each group of cases. -/
theorem createBlocks_keys {groups : List (Nat × List StringCase)}
    {made : List (Nat × BlockId × List StringCase)}
    (h : (groups.mapM (fun (n, cases) => do return (n, ← Emit.createBlock false, cases)) :
      Lower (List (Nat × BlockId × List StringCase))) env s = .ok (made, s')) :
        made.map (·.1) = groups.map (·.1) := by
  refine mapM_map_eq (fun group s x s' hx => ?_) h
  obtain ⟨block, b', -, hx⟩ := emit_bind_ok hx
  cases hx
  rfl

/-! ## Switches -/

/-- A switch over groups of cases, with the code of each group behind it. -/
theorem unambiguous_dispatch {groups : List (Nat × List StringCase)} (value : Reg)
    (fallback : BlockId) (f : Nat → List StringCase → Lower Unit)
    [hf : ∀ n cases, Unambiguous (f n cases)] (hnodup : (groups.map (·.1)).Nodup)
    (hlt : ∀ k ∈ groups.map (·.1), k < 0x100000000) : Unambiguous (do
      let made ← groups.mapM fun (n, cases) => return (n, ← Emit.createBlock false, cases)
      Emit.switch value (made.map fun x => (Int32.ofNat x.1, x.2.1)) fallback
      made.forM fun (n, block, cases) => do
        Emit.switchTo block
        f n cases : Lower Unit) := by
  refine .bind_result inferInstance fun env s made s' h => .bind ?_ fun _ => inferInstance
  have hkeys : (made.map fun x => (Int32.ofNat x.1, x.2.1)).map (·.1) = (groups.map (·.1)).map
    Int32.ofNat := by
    rw [← createBlocks_keys h, List.map_map, List.map_map]
    rfl
  have := Emit.obeys_switch value fallback (hkeys ▸ nodup_map_ofNat hnodup hlt)
  infer_instance

theorem unambiguous_switchByRuntime {data : SwitchData} (targets : Targets) (string : Reg)
    (h : data.cases.length ≤ 0x100000000) : Unambiguous (switchByRuntime data targets string) := by
  have (index : Reg) :=
    Emit.obeys_switch index targets.fallback (nodup_places (fun c => targets.get c.target) h)
  unfold switchByRuntime
  infer_instance

instance (characters : Reg) (targets : Targets) (left place : Nat) (cases : List StringCase) :
    Unambiguous (switchCharacters characters targets left place cases) := by
  induction left generalizing place cases with
  | zero =>
    unfold switchCharacters
    split <;> infer_instance
  | succ left ih =>
    have hnodup := nodup_byCharacter cases
    have hlt : ∀ k ∈ (byCharacter cases).map (·.1), k < 0x100000000 := fun k hk => by
      obtain ⟨g, hg, rfl⟩ := List.mem_map.1 hk
      exact Nat.lt_trans (byCharacter_lt hg) (by decide)
    rw [switchCharacters]
    refine .bind inferInstance fun loaded => ?_
    generalize byCharacter cases = groups at hnodup hlt
    split
    · infer_instance
    · exact unambiguous_dispatch loaded targets.fallback
        (fun _ cases => switchCharacters characters targets left (place + 1) cases) hnodup hlt

set_option synthInstance.maxSize 4000 in
theorem unambiguous_switchInline {data : SwitchData} (targets : Targets) (string : Reg)
    {cases : List StringCase} (hcount : data.cases.length ≤ 0x100000000)
    (hlength : ∀ k ∈ cases, k.rest.length < 0x100000000) :
    Unambiguous (switchInline data targets string cases) := by
  have := unambiguous_switchByRuntime targets string hcount
  have hlt : ∀ k ∈ (byLength cases).map (·.1), k < 0x100000000 := fun k hk => by
    obtain ⟨⟨n, group⟩, hg, rfl⟩ := List.mem_map.1 hk
    obtain ⟨⟨c, hc, rfl⟩, -⟩ := mem_byLength.1 hg
    exact hlength c hc
  have (length characters : Reg) := unambiguous_dispatch length targets.fallback
    (fun n cases => switchCharacters characters targets n 0 cases) (nodup_byLength cases) hlt
  unfold switchInline
  infer_instance

instance (value : Reg) (data : SwitchData) (targets : Targets) (fallback : BlockId) :
    (Emit.switch value (numberCases data targets) fallback).Obeys Builder.distinguishing :=
  Emit.obeys_switch value fallback (nodup_numberCases data targets)

set_option synthInstance.maxSize 1000 in
instance (node : Node) (data : SwitchData) : Unambiguous (lowerSwitchNumber node data) := by
  refine .bind inferInstance fun e => ?_
  split
  · infer_instance
  · refine .bind inferInstance fun value => .bind inferInstance fun targets => ?_
    dsimp only
    refine .bind inferInstance fun intBlock => .bind inferInstance fun notInt => .bind inferInstance
      fun int => .bind inferInstance fun _ => .bind inferInstance fun _ => .bind inferInstance
      fun narrow => .bind inferInstance fun _ => .bind inferInstance fun _ => ?_
    infer_instance

set_option synthInstance.maxSize 4000 in
theorem unambiguous_lowerSwitchChar (node : Node) {data : SwitchData}
    (h : data.cases.length ≤ 0x100000000) :
    Unambiguous (lowerSwitchChar node data) := by
  refine .bind inferInstance fun operand => ?_
  have := unambiguous_switchByRuntime operand.2 operand.1 h
  dsimp only
  refine .bind inferInstance fun impl => .bind inferInstance fun rope => .bind inferInstance
    fun resolved => .bind inferInstance fun ropeBlock => .bind inferInstance fun _ =>
    .bind inferInstance fun _ => .bind inferInstance fun _ => .bind inferInstance fun _ => ?_
  infer_instance

instance (node : Node) (data : SwitchData) : Unambiguous (lowerSwitchCell node data) := by
  refine .bind inferInstance fun e => .bind inferInstance fun value => .bind inferInstance
    fun targets => ?_
  have (c : SwitchCase) : Unambiguous (match c.value with
      | .cell address => do
        let found ← Emit.icmpImm .eq value (wordImm address)
        let next ← Emit.createBlock false
        Emit.branch found (targets.get c.target) next .normal
        Emit.switchTo next
      | key => crash (.cellSwitchKey key) : Lower Unit) := by split <;> infer_instance
  infer_instance

/-- Where a string switch compares the characters itself, the lengths of its cases are keys. -/
theorem endsUnambiguously_lowerSwitchString {node : Node} {data : SwitchData} {u : Unit}
    (h : lowerSwitchString node data env s = .ok (u, s')) (hcount : data.cases.length ≤ 0x100000000)
    (hlength : ∀ compared, stringCases? data env.options = some compared → ∀ k ∈ compared,
      k.rest.length < 0x100000000) :
    s.builder.EndsUnambiguously s'.builder := by
  obtain ⟨⟨string, targets⟩, s₁, h₁, h⟩ := bind_ok h
  dsimp only at h
  rw [read_bind] at h
  refine ((inferInstance : Unambiguous (stringOperand node data)).of_ok h₁).trans ?_
  cases hcases : stringCases? data env.options with
  | none =>
    rw [hcases] at h
    exact (unambiguous_switchByRuntime targets string hcount).of_ok h
  | some compared =>
    rw [hcases] at h
    exact (unambiguous_switchInline targets string hcount (hlength compared hcases)).of_ok h

theorem endsUnambiguously_lowerSwitch {node : Node} {data : SwitchData} {u : Unit}
    (h : lowerSwitch node data env s = .ok (u, s'))
    (hcount : data.kind = .char ∨ data.kind = .string → data.cases.length ≤ 0x100000000)
    (hlength : data.kind = .string → ∀ compared, stringCases? data env.options = some compared →
      ∀ k ∈ compared, k.rest.length < 0x100000000) : s.builder.EndsUnambiguously s'.builder := by
  rw [lowerSwitch] at h
  cases hkind : data.kind with
  | imm =>
    rw [hkind] at h
    exact (inferInstance : Unambiguous (lowerSwitchNumber node data)).of_ok h
  | char =>
    rw [hkind] at h
    exact (unambiguous_lowerSwitchChar node (hcount (.inl hkind))).of_ok h
  | string =>
    rw [hkind] at h
    exact endsUnambiguously_lowerSwitchString h (hcount (.inr hkind)) (hlength hkind)
  | cell =>
    rw [hkind] at h
    exact (inferInstance : Unambiguous (lowerSwitchCell node data)).of_ok h

/-- The keys of a switch in the code of a switch are all different, whatever its cases are and
however often they are repeated. So a native switch takes them, and goes where the first case with
the key goes.

The runtime counts cases by 32 bits. Lengths of strings are numbers of 32 bits as well: what
`hlength` excludes is a case of `2^32` or more characters that is compared in the code. There is
none unless the options ask for such cases (`stringCases?_length_le`), which by default are no
longer than 50. -/
theorem switch_keys_distinct {σ : Type} {node : Node} {data : SwitchData} {u : Unit} {f : Function}
    {i : Nat} {blk : Block}
    {value : Reg} {cases : List (Int32 × BlockId)} {fallback : BlockId}
    (h : lowerSwitch node data env s = .ok (u, s'))
    (hcount : data.kind = .char ∨ data.kind = .string → data.cases.length ≤ 0x100000000)
    (hlength : data.kind = .string → ∀ compared, stringCases? data env.options = some compared →
      ∀ k ∈ compared, k.rest.length < 0x100000000)
    (hf : s'.builder.Completes f) (hnot : ¬ s.builder.IsClosed i) (hended : s'.builder.IsClosed i)
    (hblk : f.blocks[i]? = some blk) (hswitch : blk.terminator = .switch value cases fallback) :
    (cases.map (·.1)).Nodup ∧ ∃ table, Codegen.switchTable cases = .ok table ∧
      ∀ (m : Machine σ) (c : Config σ) (w : Word), c.read value = .ok w →
        m.stepTerminator c blk.terminator = (m.enter c (table.target fallback w) []).map
          .running := by
  have hnodup : (cases.map (·.1)).Nodup := by
    have hends := endsUnambiguously_lowerSwitch h hcount hlength
    have hunambiguous := hends.ended hended hnot ((hf.closed i hended).symm.trans hblk)
    rwa [hswitch] at hunambiguous
  obtain ⟨table, htable⟩ := Codegen.switchTable_ok_iff.2 hnodup
  refine ⟨hnodup, table, htable, fun m c w hw => ?_⟩
  rw [hswitch]
  exact Codegen.stepTerminator_switch htable hw fallback

/-! The switch on the text that both cases have asks the runtime for the number of the case in block
8. -/

namespace TextSwitch

def lookup : Terminator := .switch ⟨18⟩ [(0, ⟨3⟩), (1, ⟨2⟩)] ⟨4⟩

def looksUp : Bool :=
  match Session.start graph {} {} with
  | .error _ => false
  | .ok session =>
    match lowerSwitch (ConstantSwitch.node data) data session.env
        (ConstantSwitch.before session) with
    | .error _ => false
    | .ok (_, s') =>
      session.env.options.maxStringSwitchCaseLength == 50 &&
        !decide ((ConstantSwitch.before session).builder.IsClosed 8) &&
        decide (s'.builder.IsClosed 8) && s'.builder.func.blocks[8]?.any fun blk =>
          blk.terminator == lookup

end TextSwitch

/-- The two cases with one text have different keys. -/
theorem switch_keys_distinct_text :
    ∃ session s' blk, Session.start TextSwitch.graph {} {} = .ok session ∧
    lowerSwitch (ConstantSwitch.node TextSwitch.data) TextSwitch.data session.env
      (ConstantSwitch.before session) = .ok ((), s') ∧
    s'.builder.func.blocks[8]? = some blk ∧ blk.terminator = .switch ⟨18⟩ [(0, ⟨3⟩), (1, ⟨2⟩)] ⟨4⟩ ∧
    ([0, 1] : List Int32).Nodup ∧ ∃ table, Codegen.switchTable [(0, ⟨3⟩), (1, ⟨2⟩)] = .ok table ∧
      ∀ (m : Machine Unit) (c : Config Unit) (w : Word), c.read ⟨18⟩ = .ok w →
        m.stepTerminator c blk.terminator = (m.enter c (table.target ⟨4⟩ w) []).map .running := by
  have hcheck : TextSwitch.looksUp = true := by decide +kernel
  unfold TextSwitch.looksUp at hcheck
  split at hcheck
  · cases hcheck
  rename_i session hstart
  split at hcheck
  · cases hcheck
  rename_i u s' h
  simp only [Bool.and_eq_true, decide_eq_true_eq, Bool.not_eq_true', decide_eq_false_iff_not,
    Option.any_eq_true, beq_iff_eq] at hcheck
  obtain ⟨⟨⟨hlimit, hnot⟩, hended⟩, blk, hblk, hlookup⟩ := hcheck
  have hlength (compared) (h : stringCases? TextSwitch.data session.env.options = some compared) (k)
    (hk : k ∈ compared) :
      k.rest.length < 0x100000000 := by
    have := stringCases?_length_le h k hk
    omega
  exact ⟨session, s', blk, hstart, h, hblk, hlookup, switch_keys_distinct h (fun _ => by decide)
    (fun _ => hlength)
    s'.builder.completes_self hnot hended hblk hlookup⟩

end Lowering

end SpecJit
