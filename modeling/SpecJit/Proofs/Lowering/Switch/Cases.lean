import SpecJit.Proofs.Lowering.Laws.Switch

/-!
# Which case of a string switch is found

A string switch looks for the first case with the characters of the string (`findCase`). Leaving out
later cases with the same characters, keeping the cases of the right length only, and going on
behind a common first character do not change what is found: these are the three steps by which the
lowering takes a list of cases apart.
-/

namespace SpecJit

open Lir

namespace SwitchCase

/-- The characters of a case, if it is a string of 8-bit characters. -/
def characters? (c : SwitchCase) : Option (List UInt8) :=
  match c.value with
  | .string s => Lowering.eightBitCharacters? s
  | _ => none

/-- The case is the string of these 8-bit characters. -/
def spells (c : SwitchCase) (characters : List UInt8) : Bool := c.characters? == some characters

end SwitchCase

/-- Where a switch goes: to the target of the first case that matches, or to the fall-through. -/
def SwitchData.targetOf (data : SwitchData) (isMatch : SwitchCase → Bool) : BlockIndex :=
  ((data.cases.find? isMatch).map (·.target)).getD data.fallThrough

namespace Lowering

variable {α κ : Type}

/-! ## Keys -/

/-- The first element with a key is kept. -/
theorem find?_firstOfEach [BEq κ] [LawfulBEq κ] (key : α → κ) (k : κ) (l : List α) :
    (firstOfEach key l).find? (key · == k) = l.find? (key · == k) := by
  induction l with
  | nil => rfl
  | cons a l ih =>
    rw [firstOfEach, List.find?_cons, List.find?_cons]
    cases ha : key a == k with
    | true => rfl
    | false =>
      dsimp only
      rw [List.find?_filter, ← ih]
      congr 1
      funext b
      have hne : key a ≠ k := by simpa using ha
      by_cases hb : key b = k
      · simp [hb, bne, beq_eq_false_iff_ne.2 (Ne.symm hne)]
      · simp [hb]

theorem mem_firstOfEach_id [BEq α] [LawfulBEq α] {a : α} {l : List α} :
    a ∈ firstOfEach id l ↔ a ∈ l := by
  refine ⟨mem_firstOfEach, fun h => ?_⟩
  have hfind := find?_firstOfEach id a l
  cases hf : (firstOfEach id l).find? (id · == a) with
  | some b =>
    obtain rfl : b = a := by simpa using List.find?_some hf
    exact List.mem_of_find?_eq_some hf
  | none =>
    rw [hf] at hfind
    have := List.find?_eq_none.1 hfind.symm a h
    simp at this

theorem mem_sortedKeys_iff {keys : List Nat} {n : Nat} : n ∈ sortedKeys keys ↔ n ∈ keys := by
  rw [sortedKeys, (List.mergeSort_perm _ _).mem_iff, mem_firstOfEach_id]

theorem mem_byLength {cases : List StringCase} {n : Nat} {group : List StringCase} :
    (n, group) ∈ byLength cases ↔
      (∃ c ∈ cases, c.rest.length = n) ∧ group = cases.filter (·.rest.length == n) := by
  simp only [byLength, List.mem_map, mem_sortedKeys_iff, Prod.mk.injEq]
  constructor
  · rintro ⟨_, hn, rfl, rfl⟩
    exact ⟨hn, rfl⟩
  · rintro ⟨hn, rfl⟩
    exact ⟨n, hn, rfl, rfl⟩

theorem mem_byCharacter {cases : List StringCase} {n : Nat} {group : List StringCase} :
    (n, group) ∈ byCharacter cases ↔
      (∃ c ∈ cases, c.rest.head?.map UInt8.toNat = some n) ∧ group = cases.filterMap
        (·.after? n) := by
  simp only [byCharacter, List.mem_map, mem_sortedKeys_iff, List.mem_filterMap, Prod.mk.injEq]
  constructor
  · rintro ⟨_, hn, rfl, rfl⟩
    exact ⟨hn, rfl⟩
  · rintro ⟨hn, rfl⟩
    exact ⟨n, hn, rfl, rfl⟩

/-! ## The case that is found -/

/-- The target of the first case with these characters left. -/
def findCase (cases : List StringCase) (characters : List UInt8) : Option BlockIndex :=
  (cases.find? (·.rest == characters)).map (·.target)

variable {cases : List StringCase} {characters : List UInt8}

theorem findCase_eq_none (h : ∀ c ∈ cases, c.rest ≠ characters) :
    findCase cases characters = none := by
  rw [findCase, List.find?_eq_none.2 (by simpa using h), Option.map_none]

/-- Only the cases of the right length count. -/
theorem findCase_byLength :
    findCase (cases.filter (·.rest.length == characters.length)) characters =
    findCase cases characters := by
  rw [findCase, List.find?_filter, findCase]
  congr 2
  funext c
  by_cases hc : c.rest = characters <;> simp [hc]

theorem after?_of_rest {c : StringCase} {character : UInt8} {rest : List UInt8}
    (h : c.rest = character :: rest) :
    c.after? character.toNat = some { c with rest } := by simp [StringCase.after?, h]

/-- A case with something left behind a character starts with it. -/
theorem rest_of_after? {c c' : StringCase} {character : UInt8}
    (h : c.after? character.toNat = some c') :
    c.rest = character :: c'.rest ∧ c'.target = c.target := by
  unfold StringCase.after? at h
  split at h
  · rename_i first rest hrest
    split at h
    · rename_i hfirst
      cases h
      exact ⟨by rw [hrest, UInt8.toNat_inj.1 hfirst], rfl⟩
    · cases h
  · cases h

/-- Behind a character, the cases that start with it are searched for what follows. -/
theorem findCase_byCharacter (character : UInt8) (cases : List StringCase) :
    findCase (cases.filterMap (·.after? character.toNat)) characters = findCase cases (character ::
      characters) := by
  induction cases with
  | nil => rfl
  | cons c cases ih =>
    rw [findCase, findCase] at ih ⊢
    cases ha : c.after? character.toNat with
    | none =>
      have hc : (c.rest == character :: characters) = false := by
        rw [beq_eq_false_iff_ne]
        intro hc
        rw [after?_of_rest hc] at ha
        cases ha
      rw [List.filterMap_cons, ha, List.find?_cons_of_neg (by simp [hc])]
      exact ih
    | some c' =>
      obtain ⟨hrest, htarget⟩ := rest_of_after? ha
      rw [List.filterMap_cons, ha]
      dsimp only
      rw [List.find?_cons, List.find?_cons, hrest]
      by_cases hc : c'.rest = characters
      · simp [hc, htarget]
      · have hne : (c'.rest == characters) = false := by simpa using hc
        have hne' : (character :: c'.rest == character :: characters) = false := by simpa using hc
        rw [hne, hne']
        exact ih

/-! ## Groups -/

section Groups

variable {group : List StringCase} {character : UInt8}

/-- The group of the right length has the case. -/
theorem findCase_of_mem_byLength (h : (characters.length, group) ∈ byLength cases) :
    findCase group characters = findCase cases characters := by
  obtain ⟨-, rfl⟩ := mem_byLength.1 h
  exact findCase_byLength

theorem findCase_of_notMem_byLength (h : ∀ g ∈ byLength cases, g.1 ≠ characters.length) :
    findCase cases characters = none := by
  refine findCase_eq_none fun c hc hrest => ?_
  exact h _ (mem_byLength.2 ⟨⟨c, hc, rfl⟩, rfl⟩) (by rw [hrest])

/-- The group of the right character has the case. -/
theorem findCase_of_mem_byCharacter (h : (character.toNat, group) ∈ byCharacter cases) :
    findCase group characters = findCase cases (character :: characters) := by
  obtain ⟨-, rfl⟩ := mem_byCharacter.1 h
  exact findCase_byCharacter character cases

theorem findCase_of_notMem_byCharacter (h : ∀ g ∈ byCharacter cases, g.1 ≠ character.toNat) :
    findCase cases (character :: characters) = none := by
  refine findCase_eq_none fun c hc hrest => ?_
  exact h _ (mem_byCharacter.2 ⟨⟨c, hc, by rw [hrest]; rfl⟩, rfl⟩) rfl

theorem byCharacter_lt {g : Nat × List StringCase} (h : g ∈ byCharacter cases) : g.1 < 256 := by
  obtain ⟨⟨c, -, hc⟩, -⟩ := mem_byCharacter.1 h
  obtain ⟨first, -, hfirst⟩ := Option.map_eq_some_iff.1 hc
  rw [← hfirst]
  exact first.toNat_lt

end Groups

/-! ## The cases of a switch -/

theorem mapM_characters {l : List SwitchCase} {cases : List StringCase} (characters : List UInt8)
    (h : l.mapM (fun c : SwitchCase => match c.value with
      | .string s =>
        (eightBitCharacters? s).map fun rest => ({ rest, target := c.target } : StringCase)
      | _ => none) = some cases) :
    findCase cases characters = (l.find? (·.spells characters)).map (·.target) := by
  induction l generalizing cases with
  | nil =>
    cases h
    rfl
  | cons c l ih =>
    rw [List.mapM_cons] at h
    obtain ⟨k, hk, h⟩ := Option.bind_eq_some_iff.1 h
    obtain ⟨rest, hrest, h⟩ := Option.bind_eq_some_iff.1 h
    cases h
    have ih := ih hrest
    -- the case and what it became
    obtain ⟨hc, htarget⟩ : c.characters? = some k.rest ∧ k.target = c.target := by
      unfold SwitchCase.characters?
      split at hk
      · obtain ⟨_, hs, rfl⟩ := Option.map_eq_some_iff.1 hk
        exact ⟨hs, rfl⟩
      · cases hk
    have hspells : c.spells characters = (k.rest == characters) := by
      rw [SwitchCase.spells, hc, Bool.eq_iff_iff, beq_iff_eq, beq_iff_eq, Option.some.injEq]
    rw [findCase] at ih ⊢
    rw [List.find?_cons, List.find?_cons, hspells]
    cases k.rest == characters with
    | true => simp [htarget]
    | false => exact ih

/-- The cases that the code compares the string with find the first case with its characters. -/
theorem stringCases?_find {data : SwitchData} {options : LoweringOptions}
    (h : stringCases? data options = some cases) (characters : List UInt8) :
    findCase cases characters = (data.cases.find? (·.spells characters)).map (·.target) := by
  rw [stringCases?] at h
  obtain ⟨all, hall, h⟩ := Option.bind_eq_some_iff.1 h
  dsimp only at h
  split at h
  · cases h
  split at h
  · cases h
  cases h
  rw [← mapM_characters characters hall, findCase, findCase, find?_firstOfEach]

/-- The options bound the lengths of the cases whose characters are compared. -/
theorem stringCases?_length_le {data : SwitchData} {options : LoweringOptions}
    {compared : List StringCase} (h : stringCases? data options = some compared) :
    ∀ k ∈ compared, k.rest.length ≤ options.maxStringSwitchCaseLength := by
  obtain ⟨cases, -, h⟩ := Option.bind_eq_some_iff.1 h
  dsimp only at h
  split at h
  · cases h
  rename_i hshort
  split at h
  · cases h
  cases h
  intro k hk
  refine Nat.le_of_not_lt fun hlong =>
    hshort (List.any_eq_true.2 ⟨_, List.mem_map_of_mem (mem_firstOfEach hk), ?_⟩)
  simpa using hlong

end Lowering

end SpecJit
