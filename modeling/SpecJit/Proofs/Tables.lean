import Mathlib.Data.List.Nodup
import Mathlib.Data.List.Perm.Subperm
import SpecJit.Operand

/-!
# Tables and maps

A table is a list of keys with their entries, and the first entry of a key is the one that counts.
Here is what is found in a table after keys were dropped from it or given a new entry.

`Operands` is a map with an entry per variable. What is found in it after entries were set, one by
one or all in a row, and how the map and the list of its entries go together, comes after that.
`Operands.Shaped` says how many arguments and locals a map has entries for.
-/

namespace SpecJit

variable {κ α : Type} [DecidableEq κ] {l : List (κ × α)} {k : κ}

/-- Looking up a key after keys were dropped from a table. -/
theorem lookup_filter (p : κ → Bool) (l : List (κ × α)) (k : κ) :
    (l.filter fun e => p e.1).lookup k = if p k then l.lookup k else none := by
  induction l with
  | nil => simp
  | cons e l ih =>
    obtain ⟨k', a⟩ := e
    by_cases hk : k = k'
    · subst hk
      by_cases hp : p k <;> simp [hp, ih]
    · have hbeq : (k == k') = false := by simpa using hk
      by_cases hp : p k' <;> simp [hp, ih, List.lookup_cons, hbeq]

theorem lookup_isSome_iff : (l.lookup k).isSome = true ↔ k ∈ l.map Prod.fst := by
  induction l with
  | nil => simp
  | cons e l ih =>
    obtain ⟨k', a⟩ := e
    by_cases hk : k = k'
    · simp [hk]
    · have hbeq : (k == k') = false := by simpa using hk
      rw [List.lookup_cons, hbeq, ih]
      simp [hk]

/-- Dropping different keys of a table makes it shorter by their number. -/
theorem length_filter_notMem {ks : List κ} (hl : (l.map Prod.fst).Nodup) (hks : ks.Nodup)
    (hsub : ∀ k ∈ ks, k ∈ l.map Prod.fst) :
    (l.filter fun e => !ks.contains e.1).length + ks.length = l.length := by
  have hperm : ks.Perm ((l.map Prod.fst).filter ks.contains) := by
    refine (List.perm_ext_iff_of_nodup hks (hl.filter _)).2 fun k => ?_
    rw [List.mem_filter, List.contains_iff_mem]
    exact ⟨fun hk => ⟨hsub k hk, hk⟩, And.right⟩
  have hdropped : ks.length = (l.filter fun e => ks.contains e.1).length := by
    rw [hperm.length_eq, List.filter_map, List.length_map]
    rfl
  have hall := List.length_eq_length_filter_add (l := l) fun e => ks.contains e.1
  omega

/-- A key in front of a table, in place of the entry that it had. -/
theorem lookup_replace (l : List (κ × α)) (k i : κ) (a : α) :
    ((k, a) :: l.filter fun e => e.1 != k).lookup i = if i = k then some a else l.lookup i := by
  by_cases hi : i = k
  · simp [hi]
  · have hbeq : (i == k) = false := by simpa using hi
    rw [List.lookup_cons, hbeq, if_neg hi, lookup_filter fun e => e != k]
    simp [hi]

end SpecJit

/-! ## Maps with an entry per variable -/

namespace SpecJit.Operands

variable {α β : Type}

theorem get?_set (o : Operands α) (v w : Operand) (a : α) :
    (o.set v a).get? w = if v = w then (o.get? w).map fun _ => a else o.get? w := by
  cases v with
  | arg i =>
    cases w with
    | arg j =>
      by_cases hij : i = j
      · subst hij
        by_cases hi : i < o.arguments.size <;> simp [set, get?, hi]
      · simp [set, get?, hij]
    | loc j => simp [set, get?]
  | loc i =>
    cases w with
    | arg j => simp [set, get?]
    | loc j =>
      by_cases hij : i = j
      · subst hij
        by_cases hi : i < o.locals.size <;> simp [set, get?, hi]
      · simp [set, get?, hij]

theorem get?_map (f : Operand → α → β) (o : Operands α) (v : Operand) :
    (o.map f).get? v = (o.get? v).map (f v) := by
  cases v <;> simp [map, get?]

theorem mem_toList {o : Operands α} {v : Operand} {a : α} :
    (v, a) ∈ o.toList ↔ o.get? v = some a := by
  cases v <;> simp [toList, map, get?, List.mem_append, Array.getElem?_eq_some_iff]

theorem keys_toList (o : Operands α) : o.toList.map Prod.fst =
    (List.range o.arguments.size).map Operand.arg ++
    (List.range o.locals.size).map Operand.loc := by
  rw [toList, map, List.map_append]
  congr 1 <;> refine List.ext_getElem (by simp) fun i h₁ h₂ => by simp

theorem nodup_toList (o : Operands α) : (o.toList.map Prod.fst).Nodup := by
  rw [keys_toList, List.nodup_append]
  refine ⟨List.nodup_range.map fun _ _ h => Operand.arg.inj h, List.nodup_range.map fun _ _ h =>
    Operand.loc.inj h, ?_⟩
  intro v hv w hw
  obtain ⟨i, -, rfl⟩ := List.mem_map.1 hv
  obtain ⟨j, -, rfl⟩ := List.mem_map.1 hw
  exact nofun

/-- The sizes of both parts. -/
def Shaped (o : Operands α) (arguments locals : Nat) : Prop :=
  o.arguments.size = arguments ∧ o.locals.size = locals

theorem Shaped.set {o : Operands α} {n k : Nat} (h : o.Shaped n k) (v : Operand) (a : α) :
    (o.set v a).Shaped n k := by
  cases v <;> simpa [Operands.set, Shaped] using h

theorem Shaped.setAll {n k : Nat} : ∀ (l : List (Operand × α)) {o : Operands α}, o.Shaped n k →
    (l.foldl (fun o p => o.set p.1 p.2) o).Shaped n k
  | [], _, h => h
  | p :: l, _, h => setAll l (h.set p.1 p.2)

theorem get?_setAll_of_notMem {v : Operand} :
    ∀ (l : List (Operand × α)) (o : Operands α), v ∉ l.map Prod.fst →
    (l.foldl (fun o p => o.set p.1 p.2) o).get? v = o.get? v
  | [], _, _ => rfl
  | p :: l, o, h => by
    simp only [List.map_cons, List.mem_cons, not_or] at h
    rw [List.foldl_cons, get?_setAll_of_notMem l _ h.2, get?_set, if_neg (Ne.symm h.1)]

theorem get?_setAll {v : Operand} {a : α} :
    ∀ (l : List (Operand × α)) (o : Operands α), (l.map Prod.fst).Nodup →
    (v, a) ∈ l → (l.foldl (fun o p => o.set p.1 p.2) o).get? v = (o.get? v).map fun _ => a
  | p :: l, o, hnodup, h => by
    rw [List.map_cons, List.nodup_cons] at hnodup
    rw [List.foldl_cons]
    rcases List.mem_cons.1 h with rfl | h
    · rw [get?_setAll_of_notMem l _ hnodup.1, get?_set, if_pos rfl]
    · have hne : p.1 ≠ v := fun he => hnodup.1 (he ▸ List.mem_map_of_mem h)
      rw [get?_setAll l _ hnodup.2 h, get?_set, if_neg hne]

theorem get?_replicate {n k : Nat} {a b : α} {v : Operand} (h : (replicate n k a).get? v = some b) :
    b = a := by
  cases v <;> simp only [get?, replicate, Array.getElem?_replicate, Option.ite_none_right_eq_some,
    Option.some.injEq] at h <;>
    exact h.2.symm

/-- Frames of one shape have the same variables. -/
theorem get?_of_shaped {β : Type} {o : Operands α} {p : Operands β} {n k : Nat} {v : Operand}
    {a : α} (h : o.Shaped n k) (h' : p.Shaped n k) (hv : o.get? v = some a) :
    ∃ b, p.get? v = some b := by
  cases v with
  | arg i =>
    have hlt := (Array.getElem?_eq_some_iff.1 hv).1
    exact ⟨_, Array.getElem?_eq_getElem (by rw [h'.1, ← h.1]; exact hlt)⟩
  | loc i =>
    have hlt := (Array.getElem?_eq_some_iff.1 hv).1
    exact ⟨_, Array.getElem?_eq_getElem (by rw [h'.2, ← h.2]; exact hlt)⟩

theorem get?_eq_none_of_shaped {β : Type} {o : Operands α} {p : Operands β} {n k : Nat}
    {v : Operand} (h : o.Shaped n k) (h' : p.Shaped n k) (hv : o.get? v = none) :
    p.get? v = none := by
  cases hb : p.get? v with
  | none => rfl
  | some b =>
    obtain ⟨a, ha⟩ := get?_of_shaped h' h hb
    rw [hv] at ha
    cases ha

end SpecJit.Operands
