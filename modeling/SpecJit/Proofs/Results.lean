import Mathlib.Data.List.Forall2

/-!
# Steps that can fail

A chain of steps has a result exactly if each step has one. Steps that are taken for each element of
a list give a list that goes along with it.
-/

namespace SpecJit

variable {ε α β : Type}

theorem bind_eq_ok_iff {x : Except ε α} {f : α → Except ε β} {b : β} :
    x >>= f = .ok b ↔ ∃ a, x = .ok a ∧ f a = .ok b := by
  cases x with
  | error e => exact ⟨nofun, nofun⟩
  | ok a => exact ⟨fun h => ⟨a, rfl, h⟩, fun ⟨_, rfl, h⟩ => h⟩

/-- A step that is found to have a result with some property. -/
theorem ok_of_any {x : Except ε α} {p : α → Bool} (h : x.toOption.any p = true) :
    ∃ a, x = .ok a ∧ p a = true := by
  cases x with
  | error e => cases h
  | ok a => exact ⟨a, rfl, h⟩

theorem mapM_eq_ok_iff {f : α → Except ε β} {l : List α} {bs : List β} :
    l.mapM f = .ok bs ↔ List.Forall₂ (fun a b => f a = .ok b) l bs := by
  induction l generalizing bs with
  | nil =>
    rw [List.forall₂_nil_left_iff]
    exact ⟨fun h => by cases h; rfl, fun h => by rw [h]; rfl⟩
  | cons a l ih =>
    rw [List.mapM_cons, bind_eq_ok_iff]
    simp only [bind_eq_ok_iff, ih, List.forall₂_cons_left_iff]
    constructor
    · rintro ⟨b, hb, bs', hbs', h⟩
      cases h
      exact ⟨b, bs', hb, hbs', rfl⟩
    · rintro ⟨b, bs', hb, hbs', rfl⟩
      exact ⟨b, hb, bs', hbs', rfl⟩

theorem exists_forall₂ {R : α → β → Prop} {l : List α} (h : ∀ a ∈ l, ∃ b, R a b) :
    ∃ bs, List.Forall₂ R l bs := by
  induction l with
  | nil => exact ⟨[], .nil⟩
  | cons a l ih =>
    obtain ⟨⟨b, hb⟩, hrest⟩ := List.forall_mem_cons.1 h
    obtain ⟨bs, hbs⟩ := ih hrest
    exact ⟨b :: bs, .cons hb hbs⟩

theorem exists_mem_of_forall₂ {R : α → β → Prop} {l : List α} {bs : List β} {a : α}
    (h : List.Forall₂ R l bs) (ha : a ∈ l) :
    ∃ b ∈ bs, R a b := by
  obtain ⟨i, hi, rfl⟩ := List.mem_iff_getElem.1 ha
  have hi' : i < bs.length := h.length_eq ▸ hi
  exact ⟨bs[i], List.getElem_mem hi', h.get hi hi'⟩

/-- What goes along with lists that go together goes together. -/
theorem forall₂_square {γ δ : Type} {R : α → β → Prop} {S : α → γ → Prop} {S' : β → δ → Prop}
    {T : γ → δ → Prop} {l : List α} {l' : List β} {k : List γ} {k' : List δ}
    (h : List.Forall₂ R l l') (hk : List.Forall₂ S l k) (hk' : List.Forall₂ S' l' k')
    (hT : ∀ {a b c d}, R a b → S a c → S' b d → T c d) : List.Forall₂ T k k' := by
  induction h generalizing k k' with
  | nil =>
    cases hk
    cases hk'
    exact .nil
  | cons hab _ ih =>
    obtain ⟨c, k, hc, hrest, rfl⟩ := List.forall₂_cons_left_iff.1 hk
    obtain ⟨d, k', hd, hrest', rfl⟩ := List.forall₂_cons_left_iff.1 hk'
    exact .cons (hT hab hc hd) (ih hrest hrest')

end SpecJit
