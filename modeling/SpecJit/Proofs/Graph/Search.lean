import SpecJit.Graph.Dominators
import SpecJit.Graph.Validate

/-!
# Reverse postorder

A depth-first search from the entry finishes every block that control can come to, each after what
was found from it. So in reverse postorder every block but the entry comes after one of its
predecessors (`Graph.reversePostorder_ordered`).
-/

namespace SpecJit

theorem BlockIndex.eq_of_index {a b : BlockIndex} (h : a.index = b.index) : a = b := by
  cases a
  cases b
  cases h
  rfl

namespace Graph

variable {g : Graph} {depth : Nat} {s s' : Search} {b u v : BlockIndex} {roots : List BlockIndex}

/-- Every block names blocks of the graph only. -/
def SuccessorsExist (g : Graph) : Prop := ∀ u v, v ∈ g.successors u → v.index < g.blocks.size

namespace Search

/-- The search has come to a block. -/
def Seen (s : Search) (b : BlockIndex) : Prop := s.seen[b.index]? = some true

/-- The blocks that the search has not come to. -/
def unseen (s : Search) : Nat := s.seen.toList.count false

/-- What a search does that goes on from some blocks: it finishes what it finds. -/
structure Extends (g : Graph) (roots : List BlockIndex) (s s' : Search) : Prop where
  size : s'.seen.size = s.seen.size
  seen : ∀ v, s.Seen v → s'.Seen v
  unseen_le : s'.unseen ≤ s.unseen
  closed : ∀ v, s'.Seen v → s.Seen v ∨ ∀ w ∈ g.successors v, s'.Seen w
  found : ∃ l, s'.finished = l ++ s.finished ∧ l.Nodup ∧ (∀ v ∈ l, s.seen[v.index]? = some false ∧
    s'.Seen v) ∧
    (∀ v, s'.Seen v → s.Seen v ∨ v ∈ l) ∧
    ∀ l₁ v l₂, l = l₁ ++ v :: l₂ → v ∈ roots ∨ ∃ u ∈ l₁, v ∈ g.successors u

theorem Extends.refl (g : Graph) (roots : List BlockIndex) (s : Search) : Extends g roots s s where
  size := rfl
  seen _ h := h
  unseen_le := Nat.le_refl _
  closed _ h := .inl h
  found := ⟨[], rfl, List.nodup_nil, by simp, fun _ h => .inl h, by simp⟩

theorem Extends.trans {s'' : Search} (h₁ : Extends g roots s s') (h₂ : Extends g roots s' s'') :
    Extends g roots s s'' := by
  obtain ⟨l₁, hl₁, hnd₁, hnew₁, hall₁, htree₁⟩ := h₁.found
  obtain ⟨l₂, hl₂, hnd₂, hnew₂, hall₂, htree₂⟩ := h₂.found
  refine ⟨h₂.size.trans h₁.size, fun v h => h₂.seen v (h₁.seen v h), Nat.le_trans h₂.unseen_le
    h₁.unseen_le, ?_,
    l₂ ++ l₁, by rw [hl₂, hl₁, List.append_assoc], ?_, ?_, ?_, ?_⟩
  · intro v hv
    rcases h₂.closed v hv with hv | hv
    · rcases h₁.closed v hv with hv | hv
      · exact .inl hv
      · exact .inr fun w hw => h₂.seen w (hv w hw)
    · exact .inr hv
  · refine List.nodup_append.2 ⟨hnd₂, hnd₁, fun a ha b hb he => ?_⟩
    subst he
    have hseen := (hnew₁ a hb).2
    rw [Seen, (hnew₂ a ha).1] at hseen
    cases hseen
  · intro v hv
    rcases List.mem_append.1 hv with hv | hv
    · have hnot := (hnew₂ v hv).1
      refine ⟨?_, (hnew₂ v hv).2⟩
      have hlt : v.index < s'.seen.size := (Array.getElem?_eq_some_iff.1 hnot).1
      rw [h₁.size] at hlt
      cases hs : s.seen[v.index] with
      | false => rw [Array.getElem?_eq_getElem hlt, hs]
      | true =>
        have hseen := h₁.seen v (by rw [Seen, Array.getElem?_eq_getElem hlt, hs])
        rw [Seen, hnot] at hseen
        cases hseen
    · exact ⟨(hnew₁ v hv).1, h₂.seen v (hnew₁ v hv).2⟩
  · intro v hv
    rcases hall₂ v hv with hv | hv
    · rcases hall₁ v hv with hv | hv
      · exact .inl hv
      · exact .inr (List.mem_append_right _ hv)
    · exact .inr (List.mem_append_left _ hv)
  · intro p v q hpq
    rcases List.append_eq_append_iff.1 hpq with ⟨a, rfl, ha⟩ | ⟨c, hc, hq⟩
    · rcases htree₁ a v q ha with hroot | ⟨u, hu, hv⟩
      · exact .inl hroot
      · exact .inr ⟨u, List.mem_append_right _ hu, hv⟩
    · cases c with
      | nil =>
        rw [List.append_nil] at hc
        subst hc
        rcases htree₁ [] v q (by simpa using hq.symm) with hroot | ⟨u, hu, -⟩
        · exact .inl hroot
        · cases hu
      | cons w c =>
        rw [List.cons_append, List.cons.injEq] at hq
        obtain ⟨rfl, -⟩ := hq
        exact htree₂ p v c hc

theorem Extends.mono {roots' : List BlockIndex} (h : Extends g roots s s')
    (hr : ∀ v ∈ roots, v ∈ roots') :
    Extends g roots' s s' := by
  obtain ⟨l, hl, hnd, hnew, hall, htree⟩ := h.found
  exact ⟨h.size, h.seen, h.unseen_le, h.closed, l, hl, hnd, hnew, hall,
    fun l₁ v l₂ he => (htree l₁ v l₂ he).imp_left (hr v)⟩

/-- Coming to a block. -/
def mark (s : Search) (b : BlockIndex) : Search :=
  { s with seen := s.seen.setIfInBounds b.index true }

theorem mark_seen_iff (h : s.seen[b.index]? = some false) :
    (s.mark b).Seen v ↔ s.Seen v ∨ v = b := by
  obtain ⟨hlt, -⟩ := Array.getElem?_eq_some_iff.1 h
  simp only [mark, Seen, Array.getElem?_setIfInBounds]
  by_cases hv : b.index = v.index
  · have hvb : v = b := BlockIndex.eq_of_index hv.symm
    subst hvb
    simp [hlt]
  · have hvb : v ≠ b := fun he => hv (by rw [he])
    simp [hv, hvb]

theorem mark_unseen (h : s.seen[b.index]? = some false) : (s.mark b).unseen + 1 = s.unseen := by
  obtain ⟨hlt, hb⟩ := Array.getElem?_eq_some_iff.1 h
  have hmem : false ∈ s.seen.toList := by
    rw [← hb]
    simp
  have hpos : 0 < s.seen.toList.count false := List.count_pos_iff.2 hmem
  simp only [mark, unseen, Array.toList_setIfInBounds]
  rw [List.count_set (by simpa using hlt)]
  simp only [Array.getElem_toList, hb, beq_self_eq_true, ↓reduceIte]
  rw [if_neg (by decide), Nat.add_zero, Nat.sub_add_cancel hpos]

theorem unseen_eq_zero (h : s.unseen = 0) (hb : b.index < s.seen.size) : s.Seen b := by
  rw [Seen, Array.getElem?_eq_getElem hb]
  cases hs : s.seen[b.index] with
  | true => rfl
  | false =>
    have hmem : false ∈ s.seen.toList := by
      rw [← hs]
      simp
    have hpos : 0 < s.seen.toList.count false := List.count_pos_iff.2 hmem
    rw [unseen] at h
    omega

/-- Going on from several blocks, one after the other. -/
theorem foldl_visit_extends {visit : Search → BlockIndex → Search}
    (hvisit : ∀ (s : Search) (b : BlockIndex), s.seen.size = g.blocks.size → s.unseen ≤ depth →
      b.index < g.blocks.size →
      Extends g [b] s (visit s b) ∧ (visit s b).Seen b)
    (ws : List BlockIndex) (hws : ∀ w ∈ ws, w.index < g.blocks.size)
    (hsize : s.seen.size = g.blocks.size)
    (hs : s.unseen ≤ depth) : Extends g ws s (ws.foldl visit s) ∧ ∀ w ∈ ws,
    (ws.foldl visit s).Seen w := by
  induction ws generalizing s with
  | nil => exact ⟨.refl g [] s, by simp⟩
  | cons w ws ih =>
    obtain ⟨hfirst, hseen⟩ := hvisit s w hsize hs (hws w (by simp))
    obtain ⟨hrest, hall⟩ := ih (s := visit s w) (fun w' hw' => hws w' (by simp [hw']))
      (hfirst.size.trans hsize)
      (Nat.le_trans hfirst.unseen_le hs)
    refine ⟨(hfirst.mono (by simp)).trans (hrest.mono fun v hv => by simp [hv]), fun v hv => ?_⟩
    rcases List.mem_cons.1 hv with rfl | hv
    · exact hrest.seen v hseen
    · exact hall v hv

end Search

open Search in
/-- A search whose depth is not exhausted finishes all that it can come to. -/
theorem visit_extends (hg : g.SuccessorsExist) (depth : Nat) (s : Search) (b : BlockIndex)
    (hsize : s.seen.size = g.blocks.size) (hs : s.unseen ≤ depth) (hb : b.index < g.blocks.size) :
    Extends g [b] s (g.visit depth s b) ∧ (g.visit depth s b).Seen b := by
  induction depth generalizing s b with
  | zero =>
    have hlt : b.index < s.seen.size := by rw [hsize]; exact hb
    exact ⟨.refl g [b] s, unseen_eq_zero (Nat.le_zero.1 hs) hlt⟩
  | succ depth ih =>
    rw [visit]
    split
    · rename_i hnot
      replace hnot : s.seen[b.index]? = some false := by simpa using hnot
      have hmark := mark_unseen hnot
      have hsize' : (s.mark b).seen.size = g.blocks.size := by simpa [mark] using hsize
      obtain ⟨hrest, hall⟩ :=
        foldl_visit_extends (g := g) ih (g.successors b) (fun w hw => hg b w hw) hsize' (by omega)
      obtain ⟨l, hl, hnd, hnew, hfound, htree⟩ := hrest.found
      change Extends g [b] s { (g.successors b).foldl (g.visit depth) (s.mark b) with
        finished := b :: ((g.successors b).foldl (g.visit depth) (s.mark b)).finished } ∧ _
      have hseen : ∀ v, Seen ((g.successors b).foldl (g.visit depth) (s.mark b)) v →
        (s.mark b).Seen v ∨ v ∈ l := hfound
      have hb' : (s.mark b).Seen b := (mark_seen_iff hnot).2 (.inr rfl)
      have hbl : b ∉ l := fun hmem => by
        have hfalse := (hnew b hmem).1
        rw [Seen, hfalse] at hb'
        cases hb'
      refine ⟨⟨hrest.size.trans (by simp [mark]),
        fun v hv => hrest.seen v ((mark_seen_iff hnot).2 (.inl hv)), ?_, ?_,
        b :: l, by rw [hl]; rfl, List.nodup_cons.2 ⟨hbl, hnd⟩, ?_, ?_, ?_⟩, hrest.seen b hb'⟩
      · have hle := hrest.unseen_le
        change ((g.successors b).foldl (g.visit depth) (s.mark b)).unseen ≤ s.unseen
        omega
      · intro v hv
        rcases hrest.closed v hv with hv | hv
        · rcases (mark_seen_iff hnot).1 hv with hv | rfl
          · exact .inl hv
          · exact .inr hall
        · exact .inr hv
      · intro v hv
        rcases List.mem_cons.1 hv with rfl | hv
        · exact ⟨hnot, hrest.seen v hb'⟩
        · refine ⟨?_, (hnew v hv).2⟩
          have hfalse := (hnew v hv).1
          have hne : b.index ≠ v.index :=
            fun he => hbl (by rw [BlockIndex.eq_of_index he]; exact hv)
          simpa [mark, Array.getElem?_setIfInBounds, hne] using hfalse
      · intro v hv
        rcases hseen v hv with hv | hv
        · rcases (mark_seen_iff hnot).1 hv with hv | rfl
          · exact .inl hv
          · exact .inr (by simp)
        · exact .inr (by simp [hv])
      · intro l₁ v l₂ he
        cases l₁ with
        | nil =>
          rw [List.nil_append, List.cons.injEq] at he
          exact .inl (by simp [he.1])
        | cons u l₁ =>
          rw [List.cons_append, List.cons.injEq] at he
          obtain ⟨rfl, he⟩ := he
          rcases htree l₁ v l₂ he with hsucc | ⟨u, hu, hv⟩
          · exact .inr ⟨b, by simp, hsucc⟩
          · exact .inr ⟨u, by simp [hu], hv⟩
    · rename_i hnot
      refine ⟨.refl g [b] s, ?_⟩
      have hlt : b.index < s.seen.size := by rw [hsize]; exact hb
      rw [Seen, Array.getElem?_eq_getElem hlt]
      rw [Array.getElem?_eq_getElem hlt] at hnot
      cases hv : s.seen[b.index] with
      | true => rfl
      | false => simp [hv] at hnot

/-- The blocks that control can come to, in an order in which each but the entry follows a
predecessor. -/
structure Ordered (g : Graph) (order : List BlockIndex) : Prop where
  nodup : order.Nodup
  range : ∀ b ∈ order, b.index < g.blocks.size
  entry : ∃ rest, order = ⟨0⟩ :: rest
  closed : ∀ u ∈ order, ∀ v ∈ g.successors u, v ∈ order
  earlier : ∀ l₁ v l₂, order = l₁ ++ v :: l₂ → v = ⟨0⟩ ∨ ∃ u ∈ l₁, v ∈ g.successors u

theorem reversePostorder_ordered (hg : g.SuccessorsExist) (hne : 0 < g.blocks.size) :
    g.Ordered g.reversePostorder := by
  have hunseen : Search.unseen { seen := Array.replicate g.blocks.size false } = g.blocks.size := by
    simp [Search.unseen]
  obtain ⟨he, hentry⟩ :=
    visit_extends hg g.blocks.size { seen := Array.replicate g.blocks.size false } ⟨0⟩
    (by simp) (Nat.le_of_eq hunseen) hne
  obtain ⟨l, hl, hnd, hnew, hall, htree⟩ := he.found
  have horder : g.reversePostorder = l := by rw [reversePostorder, hl]; simp
  have hnone (v : BlockIndex) : ¬ Search.Seen { seen := Array.replicate g.blocks.size false }
    v := by
    simp [Search.Seen, Array.getElem?_replicate]
  have hmem (v : BlockIndex)
    (hv : Search.Seen (g.visit g.blocks.size { seen := Array.replicate g.blocks.size false } ⟨0⟩) v)
      :
      v ∈ l := (hall v hv).resolve_left (hnone v)
  rw [horder]
  refine ⟨hnd, fun b hb => ?_, ?_, fun u hu v hv => ?_, fun l₁ v l₂ h => ?_⟩
  · have hsome := (hnew b hb).1
    simpa using (Array.getElem?_eq_some_iff.1 hsome).1
  · cases l with
    | nil => cases hmem _ hentry
    | cons v rest =>
      rcases htree [] v rest rfl with hv | ⟨u, hu, -⟩
      · exact ⟨rest, by rw [List.mem_singleton.1 hv]⟩
      · cases hu
  · exact hmem v (((he.closed u (hnew u hu).2).resolve_left (hnone u)) v hv)
  · exact (htree l₁ v l₂ h).imp_left List.mem_singleton.1

end Graph

end SpecJit
