import SpecJit.Lowering.Node
import SpecJit.Proofs.Lowering.Laws.Elements

/-!
# Switches leave nothing pending

A switch over characters makes a block for each next character and comes back to them one after the
other, so that the blocks of all levels are pending at the same time (`forM_blocks_after`). No group
of cases is empty (`GroupOf`), which is why every one of these blocks gets its terminator.

With the switches all operations are tidy, except the two that end a block as unreachable
(`tidy_lowerOp`).
-/

namespace SpecJit.Lowering

open Lir

variable {α β : Type} {env : Env} {s₀ s s' : State} {P : List BlockId} {u : Unit}

/-! ## Blocks that are made and taken up -/

/-- The block that was made last is taken up. -/
theorem switchTo_last {p : BlockId} (h : (liftM (Emit.switchTo p) : Lower Unit) env s = .ok (u, s'))
    (e : s₀.builder.Emits (P ++ [p]) s.builder) (hc : s.builder.IsClosed s.builder.current.index) :
    s₀.builder.Emits P s'.builder := by
  have e' := switchTo_after h e hc (by simp)
  have hp : p ∉ P := fun hm => (List.nodup_append.1 e.distinct).2.2 p hm p (by simp) rfl
  simpa [List.erase_append_right _ hp] using e'

/-- A test that goes on in a new block. -/
theorem guard_after {test : BlockId → Emit Unit} {f : Unit → Lower β} {r : β × State}
    (h : ((liftM (Emit.createBlock false) : Lower BlockId) >>= fun next =>
      (liftM (test next) : Lower Unit) >>= fun _ =>
      (liftM (Emit.switchTo next) : Lower Unit) >>= f) env s = .ok r)
    (e : s₀.builder.Emits P s.builder)
    (htest : ∀ next, ∃ t, t ≠ .unreachable ∧ test next = Emit.terminate t) :
    ∃ s', s₀.builder.Emits P s'.builder ∧ f () env s' = .ok r := by
  obtain ⟨next, s₁, h₁, h⟩ := bind_ok h
  have e₁ := createBlock_after h₁ e
  obtain ⟨_, s₂, h₂, h⟩ := bind_ok h
  obtain ⟨t, ht, heq⟩ := htest next
  rw [heq] at h₂
  obtain ⟨e₂, c₂⟩ := terminate_after h₂ ht e₁
  obtain ⟨_, s₃, h₃, h⟩ := bind_ok h
  exact ⟨s₃, switchTo_last h₃ e₂ c₂, h⟩

theorem branch_isTest {cond : Reg} {other : BlockId} {weight : BranchWeight} (next : BlockId) :
    ∃ t, t ≠ .unreachable ∧ Emit.branch cond next other weight = Emit.terminate t :=
  ⟨.branch cond next [] other [] weight, nofun, rfl⟩

/-- One block for each group of cases. -/
theorem createBlocks_after {groups : List (Nat × List StringCase)}
    {made : List (Nat × BlockId × List StringCase)}
    (h : (groups.mapM (fun (n, cases) => do return (n, ← Emit.createBlock false, cases)) :
      Lower (List (Nat × BlockId × List StringCase))) env s = .ok (made, s'))
    (e : s₀.builder.Emits P s.builder) :
    s₀.builder.Emits (P ++ made.map (·.2.1)) s'.builder ∧ ∀ c ∈ made, (c.1, c.2.2) ∈ groups := by
  induction groups generalizing s P made with
  | nil => cases h; exact ⟨by simpa using e, nofun⟩
  | cons group groups ih =>
    rw [List.mapM_cons] at h
    obtain ⟨c, s₁, h₁, h⟩ := bind_ok h
    obtain ⟨id, s₂, h₂, h₁⟩ := bind_ok h₁
    cases h₁
    obtain ⟨rest, s₃, h₃, h⟩ := bind_ok h
    cases h
    obtain ⟨e₃, hrest⟩ := ih h₃ (createBlock_after h₂ e)
    refine ⟨by simpa using e₃, fun c hc => ?_⟩
    rcases List.mem_cons.1 hc with rfl | hc
    · exact List.mem_cons_self
    · exact List.mem_cons_of_mem _ (hrest c hc)

/-- Pending blocks are taken up one after the other, and each of them is ended. -/
theorem forM_blocks_after {made : List (Nat × BlockId × List StringCase)}
    (body : Nat → List StringCase → Lower Unit)
    (hbody : ∀ c ∈ made, ∀ {s s' : State} {P : List BlockId} {u : Unit},
      s₀.builder.Emits P s.builder →
      body c.1 c.2.2 env s = .ok (u, s') →
      s₀.builder.Emits P s'.builder ∧ s'.builder.IsClosed s'.builder.current.index)
    (h : (made.forM (fun (n, block, cases) => do Emit.switchTo block; body n cases) : Lower Unit)
      env s =
      .ok (u, s'))
    (e : s₀.builder.Emits (P ++ made.map (·.2.1)) s.builder)
    (hc : s.builder.IsClosed s.builder.current.index) :
    s₀.builder.Emits P s'.builder ∧ s'.builder.IsClosed s'.builder.current.index := by
  induction made generalizing s with
  | nil => cases h; exact ⟨by simpa using e, hc⟩
  | cons c made ih =>
    change ((liftM (Emit.switchTo c.2.1) >>= fun _ => body c.1 c.2.2) >>= fun _ => made.forM _) env
      s = _ at h
    obtain ⟨_, s₂, h₂, h⟩ := bind_ok h
    obtain ⟨_, s₁, h₁, h₂⟩ := bind_ok h₂
    have e₁ := switchTo_after h₁ e hc (by simp)
    have hnot : c.2.1 ∉ P := fun hm => (List.nodup_append.1 e.distinct).2.2 c.2.1 hm c.2.1 (by simp)
      rfl
    rw [List.erase_append_right _ hnot, List.map_cons, List.erase_cons_head] at e₁
    obtain ⟨e₂, c₂⟩ := hbody c (by simp) e₁ h₂
    exact ih (fun c' hc' => hbody c' (by simp [hc'])) h e₂ c₂

/-! ## Cases -/

theorem mem_firstOfEach {κ : Type} [BEq κ] {key : α → κ} {a : α} {l : List α}
    (h : a ∈ firstOfEach key l) : a ∈ l := by
  induction l with
  | nil => exact h
  | cons b l ih =>
    rcases List.mem_cons.1 h with rfl | h
    · simp
    · exact List.mem_cons_of_mem _ (ih (List.mem_filter.1 h).1)

theorem mem_sortedKeys {keys : List Nat} {n : Nat} (h : n ∈ sortedKeys keys) : n ∈ keys :=
  mem_firstOfEach ((List.mergeSort_perm _ _).mem_iff.1 h)

/-- There are cases, and each of them has `left` characters to be compared. -/
structure GroupOf (left : Nat) (cases : List StringCase) : Prop where
  nonempty : cases ≠ []
  length : ∀ c ∈ cases, c.rest.length = left

theorem byLength_group {cases : List StringCase} {group : Nat × List StringCase}
    (h : group ∈ byLength cases) : GroupOf group.1 group.2 := by
  obtain ⟨n, hn, rfl⟩ := List.mem_map.1 h
  obtain ⟨c, hc, rfl⟩ := List.mem_map.1 (mem_sortedKeys hn)
  constructor
  · exact List.ne_nil_of_mem (List.mem_filter.2 ⟨hc, by simp⟩)
  · intro c' hc'
    simpa using (List.mem_filter.1 hc').2

theorem byCharacter_group {left : Nat} {cases : List StringCase} (hg : GroupOf (left + 1) cases)
    {group : Nat × List StringCase} (h : group ∈ byCharacter cases) : GroupOf left group.2 := by
  obtain ⟨ch, hch, rfl⟩ := List.mem_map.1 h
  obtain ⟨c, hc, hhead⟩ := List.mem_filterMap.1 (mem_sortedKeys hch)
  constructor
  · obtain ⟨first, hfirst, rfl⟩ := Option.map_eq_some_iff.1 hhead
    obtain ⟨rest, hrest⟩ := List.head?_eq_some_iff.1 hfirst
    have hafter : c.after? first.toNat = some { c with rest } := by simp [StringCase.after?, hrest]
    exact List.ne_nil_of_mem (List.mem_filterMap.2 ⟨c, hc, hafter⟩)
  · intro c' hc'
    obtain ⟨c'', hmem, hafter⟩ := List.mem_filterMap.1 hc'
    have hlen := hg.length c'' hmem
    unfold StringCase.after? at hafter
    split at hafter
    · rename_i hrest
      rw [hrest] at hlen
      split at hafter
      · cases hafter
        simpa using hlen
      · cases hafter
    · cases hafter

/-! ## Switches -/

section

variable {R : Law} [R.Codes]

instance [∀ target, Obeys R (successorBlock target)] (data : SwitchData) :
    Obeys R (switchTargets data) := by
  refine .bind inferInstance fun blocks => ?_
  split <;> infer_instance

instance (impl : Reg) : Obeys R (eightBitFlag impl) := by unfold eightBitFlag; infer_instance

end

section Rebuilds

variable {R : Law} [R.Rebuilds]

set_option synthInstance.maxSize 400 in
instance (value : Reg) (fallback : BlockId) : Obeys R (requireString value fallback) := by
  unfold requireString
  infer_instance

variable [R.Uncoded]

instance (data : SwitchData) (targets : Targets) (string : Reg) :
    Obeys R (switchByRuntime data targets string) := by
  unfold switchByRuntime
  infer_instance

instance (characters : Reg) (targets : Targets) (left place : Nat) (cases : List StringCase) :
    Obeys R (switchCharacters characters targets left place cases) := by
  induction left generalizing place cases with
  | zero =>
    unfold switchCharacters
    split <;> infer_instance
  | succ left ih =>
    rw [switchCharacters]
    refine .bind inferInstance fun loaded => ?_
    split <;> infer_instance

set_option synthInstance.maxSize 10000 in
instance (data : SwitchData) (targets : Targets) (string : Reg) (cases : List StringCase) :
    Obeys R (switchInline data targets string cases) := by
  unfold switchInline
  infer_instance

end Rebuilds

instance (value : Reg) (fallback : BlockId) : Tidy (requireString value fallback) where
  obeys env s a s' h hw := by
    obtain ⟨cellBlock, s₁, h₁, h⟩ := bind_ok h
    have e₁ := createBlock_after h₁ (.refl hw)
    obtain ⟨stringBlock, s₂, h₂, h⟩ := bind_ok h
    have e₂ := createBlock_after h₂ e₁
    obtain ⟨cell, s₃, h₃, h⟩ := bind_ok h
    have e₃ := Tidy.after h₃ e₂
    obtain ⟨_, s₄, h₄, h⟩ := bind_ok h
    obtain ⟨e₄, c₄⟩ := terminate_after h₄ nofun e₃
    obtain ⟨_, s₅, h₅, h⟩ := bind_ok h
    have e₅ := switchTo_after h₅ e₄ c₄ (by simp)
    obtain ⟨string, s₆, h₆, h⟩ := bind_ok h
    have e₆ := Tidy.after h₆ e₅
    obtain ⟨_, s₇, h₇, h⟩ := bind_ok h
    obtain ⟨e₇, c₇⟩ := terminate_after h₇ nofun e₆
    have e₈ := switchTo_after h e₇ c₇ (by simp)
    simpa using e₈

instance (data : SwitchData) (targets : Targets) (string : Reg) :
    Tidy (switchByRuntime data targets string) := by
  unfold switchByRuntime
  infer_instance

/-- A switch by the runtime ends the block. -/
theorem switchByRuntime_after {data : SwitchData} {targets : Targets} {string : Reg}
    (h : switchByRuntime data targets string env s = .ok (u, s')) (e : s₀.builder.Emits P s.builder)
    :
    s₀.builder.Emits P s'.builder ∧ s'.builder.IsClosed s'.builder.current.index := by
  obtain ⟨table, s₁, h₁, h⟩ := bind_ok h
  have e₁ := Tidy.after h₁ e
  obtain ⟨result, s₂, h₂, h⟩ := bind_ok h
  have e₂ := Tidy.after h₂ e₁
  obtain ⟨index, s₃, h₃, h⟩ := bind_ok h
  have e₃ := Tidy.after h₃ e₂
  exact terminate_after h nofun e₃

/-- A comparison of characters ends the block it starts in. -/
theorem switchCharacters_after {characters : Reg} {targets : Targets} {left place : Nat}
    {cases : List StringCase} (hg : GroupOf left cases)
    (h : switchCharacters characters targets left place cases env s = .ok (u, s'))
    (e : s₀.builder.Emits P s.builder) :
    s₀.builder.Emits P s'.builder ∧ s'.builder.IsClosed s'.builder.current.index := by
  induction left generalizing place cases s s' P u with
  | zero =>
    obtain ⟨c, rest, rfl⟩ := List.exists_cons_of_ne_nil hg.nonempty
    exact terminate_after h nofun e
  | succ left ih =>
    rw [switchCharacters] at h
    obtain ⟨loaded, s₁, h₁, h⟩ := bind_ok h
    have e₁ := Tidy.after h₁ e
    have hgroup : ∀ group ∈ byCharacter cases, GroupOf left group.2 := fun _ => byCharacter_group hg
    generalize byCharacter cases = groups at h hgroup
    split at h
    · obtain ⟨equal, s₂, h₂, h⟩ := bind_ok h
      have e₂ := Tidy.after h₂ e₁
      obtain ⟨s₃, e₃, h⟩ := guard_after h e₂ branch_isTest
      exact ih (hgroup _ (List.mem_singleton_self _)) h e₃
    · obtain ⟨made, s₂, h₂, h⟩ := bind_ok h
      obtain ⟨e₂, hmade⟩ := createBlocks_after h₂ e₁
      obtain ⟨_, s₃, h₃, h⟩ := bind_ok h
      obtain ⟨e₃, c₃⟩ := terminate_after h₃ nofun e₂
      exact forM_blocks_after (fun _ cases => switchCharacters characters targets left (place + 1)
        cases)
        (fun c hc _ _ _ _ e h => ih (hgroup _ (hmade c hc)) h e) h e₃ c₃

instance (data : SwitchData) (targets : Targets) (string : Reg) (cases : List StringCase) :
    Tidy (switchInline data targets string cases) where
  obeys env s a s' h hw := by
    obtain ⟨impl, s₁, h₁, h⟩ := bind_ok h
    have e₁ := Tidy.after h₁ (.refl hw)
    obtain ⟨fast, s₂, h₂, h⟩ := bind_ok h
    have e₂ := createBlock_after h₂ e₁
    obtain ⟨slow, s₃, h₃, h⟩ := bind_ok h
    have e₃ := createBlock_after h₃ e₂
    obtain ⟨rope, s₄, h₄, h⟩ := bind_ok h
    have e₄ := Tidy.after h₄ e₃
    obtain ⟨s₅, e₅, h⟩ := guard_after h e₄ fun next => ⟨.branch rope slow [] next [] .takenRare,
      nofun, rfl⟩
    obtain ⟨flag, s₆, h₆, h⟩ := bind_ok h
    have e₆ := Tidy.after h₆ e₅
    obtain ⟨_, s₇, h₇, h⟩ := bind_ok h
    obtain ⟨e₇, c₇⟩ := terminate_after h₇ nofun e₆
    obtain ⟨_, s₈, h₈, h⟩ := bind_ok h
    have e₈ := switchTo_last h₈ e₇ c₇
    obtain ⟨_, s₉, h₉, h⟩ := bind_ok h
    obtain ⟨e₉, c₉⟩ := switchByRuntime_after h₉ e₈
    obtain ⟨_, s₁₀, h₁₀, h⟩ := bind_ok h
    have e₁₀ := switchTo_last h₁₀ e₉ c₉
    obtain ⟨length, s₁₁, h₁₁, h⟩ := bind_ok h
    have e₁₁ := Tidy.after h₁₁ e₁₀
    obtain ⟨characters, s₁₂, h₁₂, h⟩ := bind_ok h
    have e₁₂ := Tidy.after h₁₂ e₁₁
    obtain ⟨made, s₁₃, h₁₃, h⟩ := bind_ok h
    obtain ⟨e₁₃, hmade⟩ := createBlocks_after h₁₃ e₁₂
    obtain ⟨_, s₁₄, h₁₄, h⟩ := bind_ok h
    obtain ⟨e₁₄, c₁₄⟩ := terminate_after h₁₄ nofun e₁₃
    exact (forM_blocks_after (fun n cases => switchCharacters characters targets n 0 cases)
      (fun c hc _ _ _ _ e h => switchCharacters_after (byLength_group (hmade c hc)) h e) h e₁₄
        c₁₄).1

/-- The part of the code that looks a double up. -/
def switchDouble (value : Reg) (cases : List (Int32 × BlockId)) (fallback : BlockId) :
    Lower Unit := do
  let doubleBlock ← Emit.createBlock false
  let number ← isNumber value
  Emit.branch number doubleBlock fallback .normal
  Emit.switchTo doubleBlock
  let double ← unboxDouble value
  let truncated ← Emit.doubleToInt .i32 double
  let back ← Emit.intToDouble true truncated
  let exact ← Emit.fcmp .eq back double
  let exactBlock ← Emit.createBlock false
  Emit.branch exact exactBlock fallback .normal
  Emit.switchTo exactBlock
  Emit.switch truncated cases fallback

instance (value : Reg) (cases : List (Int32 × BlockId)) (fallback : BlockId) :
    Tidy (switchDouble value cases fallback) := by
  refine ⟨fun env s a s' h hw => ?_⟩
  obtain ⟨doubleBlock, s₁, h₁, h⟩ := bind_ok h
  have e₁ := createBlock_after h₁ (.refl hw)
  obtain ⟨number, s₂, h₂, h⟩ := bind_ok h
  have e₂ := Tidy.after h₂ e₁
  obtain ⟨_, s₃, h₃, h⟩ := bind_ok h
  obtain ⟨e₃, c₃⟩ := terminate_after h₃ nofun e₂
  obtain ⟨_, s₄, h₄, h⟩ := bind_ok h
  have e₄ := switchTo_last h₄ e₃ c₃
  obtain ⟨double, s₅, h₅, h⟩ := bind_ok h
  have e₅ := Tidy.after h₅ e₄
  obtain ⟨truncated, s₆, h₆, h⟩ := bind_ok h
  have e₆ := Tidy.after h₆ e₅
  obtain ⟨back, s₇, h₇, h⟩ := bind_ok h
  have e₇ := Tidy.after h₇ e₆
  obtain ⟨exact, s₈, h₈, h⟩ := bind_ok h
  have e₈ := Tidy.after h₈ e₇
  obtain ⟨s₉, e₉, h⟩ := guard_after h e₈ branch_isTest
  exact Tidy.after h e₉

/-- The part of the code after the operand. -/
def switchBoxed (value : Reg) (cases : List (Int32 × BlockId)) (fallback : BlockId) :
    Lower Unit := do
  let intBlock ← Emit.createBlock false
  let notInt ← Emit.createBlock false
  let int ← isInt32 value
  Emit.branch int intBlock notInt .normal
  Emit.switchTo intBlock
  let narrow ← Emit.truncate value
  Emit.switch narrow cases fallback
  Emit.switchTo notInt
  switchDouble value cases fallback

instance (value : Reg) (cases : List (Int32 × BlockId)) (fallback : BlockId) :
    Tidy (switchBoxed value cases fallback) := by
  refine ⟨fun env s a s' h hw => ?_⟩
  obtain ⟨intBlock, s₁, h₁, h⟩ := bind_ok h
  have e₁ := createBlock_after h₁ (.refl hw)
  obtain ⟨notInt, s₂, h₂, h⟩ := bind_ok h
  have e₂ := createBlock_after h₂ e₁
  obtain ⟨int, s₃, h₃, h⟩ := bind_ok h
  have e₃ := Tidy.after h₃ e₂
  obtain ⟨_, s₄, h₄, h⟩ := bind_ok h
  obtain ⟨e₄, c₄⟩ := terminate_after h₄ nofun e₃
  obtain ⟨_, s₅, h₅, h⟩ := bind_ok h
  have e₅ := switchTo_after h₅ e₄ c₄ (by simp)
  obtain ⟨narrow, s₆, h₆, h⟩ := bind_ok h
  have e₆ := Tidy.after h₆ e₅
  obtain ⟨_, s₇, h₇, h⟩ := bind_ok h
  obtain ⟨e₇, c₇⟩ := terminate_after h₇ nofun e₆
  obtain ⟨_, s₈, h₈, h⟩ := bind_ok h
  have e₈ := switchTo_after h₈ e₇ c₇ (by simp)
  simpa using Tidy.after h e₈

/-- A switch over single characters, after the string was read. -/
def switchCharacter (data : SwitchData) (targets : Targets) (string : Reg) : Lower Unit := do
  let impl ← loadField64 string .stringImpl
  let rope ← Emit.icmpImm .eq impl 0
  let resolved ← Emit.createBlock false
  let ropeBlock ← Emit.createBlock false
  Emit.branch rope ropeBlock resolved .takenRare
  Emit.switchTo ropeBlock
  switchByRuntime data targets string
  Emit.switchTo resolved
  let length ← loadField32 impl .stringImplLength
  let single ← Emit.icmpImm .eq length 1
  let singleBlock ← Emit.createBlock false
  Emit.branch single singleBlock targets.fallback .normal
  Emit.switchTo singleBlock
  let characters ← loadField64 impl .stringImplData
  let eightBit ← Emit.icmpImm .ne (← eightBitFlag impl) 0
  let code ← diamond .i32 eightBit .normal (Emit.load8 characters 0)
    (Emit.load .i32 .w16 false characters 0)
  Emit.switch code (numberCases data targets) targets.fallback

instance (data : SwitchData) (targets : Targets) (string : Reg) :
    Tidy (switchCharacter data targets string) where
  obeys env s a s' h hw := by
    obtain ⟨impl, s₂, h₂, h⟩ := bind_ok h
    have e₂ := Tidy.after h₂ (.refl hw)
    obtain ⟨rope, s₃, h₃, h⟩ := bind_ok h
    have e₃ := Tidy.after h₃ e₂
    obtain ⟨resolved, s₄, h₄, h⟩ := bind_ok h
    have e₄ := createBlock_after h₄ e₃
    obtain ⟨s₅, e₅, h⟩ := guard_after h e₄ branch_isTest
    obtain ⟨_, s₆, h₆, h⟩ := bind_ok h
    obtain ⟨e₆, c₆⟩ := switchByRuntime_after h₆ e₅
    obtain ⟨_, s₇, h₇, h⟩ := bind_ok h
    have e₇ := switchTo_last h₇ e₆ c₆
    obtain ⟨length, s₈, h₈, h⟩ := bind_ok h
    have e₈ := Tidy.after h₈ e₇
    obtain ⟨single, s₉, h₉, h⟩ := bind_ok h
    have e₉ := Tidy.after h₉ e₈
    obtain ⟨s₁₀, e₁₀, h⟩ := guard_after h e₉ branch_isTest
    exact Tidy.after h e₁₀

/-- A case of a switch over cells. -/
def switchCell (value : Reg) (targets : Targets) (c : SwitchCase) : Lower Unit :=
  match c.value with
  | .cell address => do
    let found ← Emit.icmpImm .eq value (wordImm address)
    let next ← Emit.createBlock false
    Emit.branch found (targets.get c.target) next .normal
    Emit.switchTo next
  | key => crash (.cellSwitchKey key)

instance (value : Reg) (targets : Targets) (c : SwitchCase) :
    Tidy (switchCell value targets c) := by
  unfold switchCell
  split
  · refine ⟨fun env s a s' h hw => ?_⟩
    obtain ⟨found, s₁, h₁, h⟩ := bind_ok h
    have e₁ := Tidy.after h₁ (.refl hw)
    obtain ⟨next, s₂, h₂, h⟩ := bind_ok h
    have e₂ := createBlock_after h₂ e₁
    obtain ⟨_, s₃, h₃, h⟩ := bind_ok h
    obtain ⟨e₃, c₃⟩ := terminate_after h₃ nofun e₂
    exact switchTo_last h e₃ c₃
  · infer_instance

/-! ## Laws that switches obey -/

/-- The law holds of the code of switches. -/
class Law.Switches (R : Law) : Prop where
  switches : ∀ value cases fallback, Obeys R (liftM (Emit.switch value cases fallback) : Lower Unit)
  boxed : ∀ value cases fallback, Obeys R (switchBoxed value cases fallback)
  requires : ∀ value fallback, Obeys R (requireString value fallback)
  characters : ∀ data targets string, Obeys R (switchCharacter data targets string)
  runtime : ∀ data targets string, Obeys R (switchByRuntime data targets string)
  inlined : ∀ data targets string cases, Obeys R (switchInline data targets string cases)
  cells : ∀ value targets c, Obeys R (switchCell value targets c)

attribute [instance] Law.Switches.switches Law.Switches.boxed Law.Switches.requires
  Law.Switches.characters Law.Switches.runtime Law.Switches.inlined Law.Switches.cells

instance : (onBuilders Builder.settling).Switches where
  switches _ _ _ := inferInstance
  boxed _ _ _ := inferInstance
  requires _ _ := inferInstance
  characters _ _ _ := inferInstance
  runtime _ _ _ := inferInstance
  inlined _ _ _ _ := inferInstance
  cells _ _ _ := inferInstance

set_option synthInstance.maxSize 4000 in
instance {R : Law} [R.Rebuilds] [R.Uncoded] : R.Switches where
  switches _ _ _ := inferInstance
  boxed _ _ _ := by
    unfold switchBoxed switchDouble
    infer_instance
  requires _ _ := inferInstance
  characters _ _ _ := by
    refine .bind inferInstance fun impl => .bind inferInstance fun rope => .bind inferInstance
      fun resolved => .bind inferInstance fun ropeBlock => .bind inferInstance fun _ =>
      .bind inferInstance fun _ => .bind inferInstance fun _ => .bind inferInstance fun _ => ?_
    infer_instance
  runtime _ _ _ := inferInstance
  inlined _ _ _ _ := inferInstance
  cells _ _ _ := by
    unfold switchCell
    split <;> infer_instance

instance {R R' : Law} [R.Switches] [R'.Switches] : (R.and R').Switches where
  switches _ _ _ := inferInstance
  boxed _ _ _ := inferInstance
  requires _ _ := inferInstance
  characters _ _ _ := inferInstance
  runtime _ _ _ := inferInstance
  inlined _ _ _ _ := inferInstance
  cells _ _ _ := inferInstance

instance {R R' : Law} {node : Node} [R.ReadsUses node] [R'.Lowers]
    [∀ value fallback, Obeys R' (requireString value fallback)] (data : SwitchData) :
    Staged R R' (stringOperand node data) := by
  refine staged_child fun e he => ?_
  have : R.Reads e := Law.ReadsUses.reads e he
  split <;> infer_instance

instance {R : Law} {node : Node} [R.ReadsUses node] [R.Lowers]
    [∀ value fallback, Obeys R (requireString value fallback)] (data : SwitchData) :
    Obeys R (stringOperand node data) := Staged.obeys inferInstance

section

variable {R R' : Law} {node : Node} [R.Speculates] [R.ReadsUses node] [R'.Lowers] [R'.Switches]

instance (data : SwitchData) : Staged R R' (lowerSwitchNumber node data) := by
  refine staged_child fun e he => ?_
  have : R.Reads e := Law.ReadsUses.reads e he
  split
  · infer_instance
  · refine .bind inferInstance fun value => .andThen inferInstance fun targets => ?_
    exact inferInstanceAs (Obeys R' (switchBoxed value (numberCases data targets) targets.fallback))

instance (data : SwitchData) : Staged R R' (lowerSwitchChar node data) :=
  .andThen inferInstance fun (string, targets) =>
    inferInstanceAs (Obeys R' (switchCharacter data targets string))

instance (data : SwitchData) : Staged R R' (lowerSwitchString node data) := by
  refine .andThen inferInstance fun operand => .bind inferInstance fun env => ?_
  split <;> infer_instance

instance (data : SwitchData) : Staged R R' (lowerSwitchCell node data) := by
  refine staged_child fun e he => ?_
  have : R.Reads e := Law.ReadsUses.reads e he
  refine .bind inferInstance fun value => .andThen inferInstance fun targets => ?_
  have : Obeys R' (data.cases.forM (switchCell value targets)) := inferInstance
  exact .bind this fun _ => inferInstance

instance (data : SwitchData) : Staged R R' (lowerSwitch node data) := by
  unfold lowerSwitch
  split <;> infer_instance

end

/-! ## All operations -/

/-- The code of a node reads its uses and then does what is left to do, except for the two
operations that no run gets past. -/
theorem staged_lowerOp {R R' : Law} [R'.Lowers] [R'.Appends] [R'.Dispatches] [R'.Switches]
    [R.Speculates] (id : NodeId) {node : Node} [R.ReadsUses node] (hu : node.op ≠ .unreachable)
    (hb : node.op ≠ .bottomValue) : Staged R R' (lowerOp id node) := by
  unfold lowerOp
  split
  all_goals first | infer_instance | contradiction

/-- The code of every node is tidy, except for these two operations. -/
theorem tidy_lowerOp (id : NodeId) {node : Node} (hu : node.op ≠ .unreachable)
    (hb : node.op ≠ .bottomValue) :
    Tidy (lowerOp id node) := (staged_lowerOp id hu hb).obeys

end SpecJit.Lowering
