import Mathlib.Data.List.Perm.Subperm
import Mathlib.Logic.Relation
import SpecJit.Deopt
import SpecJit.Proofs.Tables

/-!
# What an exit needs

An exit reads captured values itself, through the objects that its variables hold, and through the
objects among the fields of those. `mem_needed_iff` says that the search of the table finds just
these objects. `Measures` says that an exit reads the first `n` captured values and no others; then
`n` is the number that the table gives (`stackmapLength?_eq`), and taking the exit with `n` values
and a frame of its shape is never refused (`resolve_unrefused`).
-/

namespace SpecJit

theorem MaterializationId.eq_of_index {m d : MaterializationId} (h : m.index = d.index) :
    m = d := by
  cases m
  cases d
  cases h
  rfl

/-- The value reads captured values below `n` and objects of `B` only. -/
structure ExitValue.Within (n : Nat) (B : MaterializationId → Prop) (x : ExitValue) : Prop where
  indices : ∀ i ∈ x.argumentIndices, i < n
  object : ∀ m, x.materialization? = some m → B m

namespace ExitTable

variable {t t' : ExitTable} {m d r : MaterializationId}
  {roots roots' found found' found'' : List MaterializationId} {record : Materialization}
  {fields : List (PromotedLocation × ExitValue)} {e : OsrExit} {id : ExitId} {n : Nat}

/-! ## Objects that need each other -/

/-- An object among the fields of another one. -/
def Needs (t : ExitTable) (m d : MaterializationId) : Prop :=
  ∃ record, t.materialization? m = some record ∧ d ∈ record.dependencies

/-- An object, the objects among its fields, and so on. -/
def Reaches (t : ExitTable) : MaterializationId → MaterializationId → Prop :=
  Relation.ReflTransGen t.Needs

theorem Reaches.mono (h : t.Reaches m d) (ht : ∀ m d, t.Needs m d → t'.Needs m d) :
    t'.Reaches m d :=
  Relation.ReflTransGen.mono ht _ _ h

/-- The table has a record of the object. -/
def Has (t : ExitTable) (m : MaterializationId) : Prop := m.index < t.materializations.size

theorem has_iff : t.Has m ↔ ∃ record, t.materialization? m = some record :=
  ⟨fun h => ⟨_, Array.getElem?_eq_getElem h⟩, fun ⟨_, h⟩ => (Array.getElem?_eq_some_iff.1 h).1⟩

theorem Needs.has (h : t.Needs m d) : t.Has m := has_iff.2 ⟨h.choose, h.choose_spec.1⟩

/-- The table with the fields of object `m` filled in. -/
def withFields (t : ExitTable) (m : MaterializationId)
    (fields : List (PromotedLocation × ExitValue)) : ExitTable :=
  { t with materializations := t.materializations.modify m.index fun d => { d with
    properties := fields } }

theorem withFields_self (h : t.materialization? m = some record) :
    (t.withFields m fields).materialization? m = some { record with properties := fields } := by
  rw [materialization?] at h
  simp [withFields, materialization?, Array.getElem?_modify, h]

theorem withFields_of_ne (h : d ≠ m) :
    (t.withFields m fields).materialization? d = t.materialization? d := by
  have hne : m.index ≠ d.index := fun he => h (MaterializationId.eq_of_index he.symm)
  simp [withFields, materialization?, Array.getElem?_modify, hne]

/-- An object without fields needs no less when they are filled in, and all others need the same. -/
theorem Needs.withFields (h : t.materialization? m = some record) (hnone : record.properties = [])
    (a b : MaterializationId) (hab : t.Needs a b) : (t.withFields m fields).Needs a b := by
  obtain ⟨record', hrecord', hb⟩ := hab
  by_cases ham : a = m
  · rw [ham, h] at hrecord'
    cases hrecord'
    simp [Materialization.dependencies, hnone] at hb
  · exact ⟨record', (withFields_of_ne ham).trans hrecord', hb⟩

/-! ## The search -/

/-- What the search goes through from some objects: it adds what they reach, and finishes with what
it adds. -/
structure Finds (t : ExitTable) (roots found found' : List MaterializationId) : Prop where
  kept : found ⊆ found'
  nodup : found'.Nodup
  inRange : ∀ m ∈ found', t.Has m
  started : ∀ r ∈ roots, t.Has r → r ∈ found'
  reached : ∀ m ∈ found', m ∈ found ∨ ∃ r ∈ roots, t.Reaches r m
  closed : ∀ m ∈ found', m ∈ found ∨ ∀ d, t.Needs m d → t.Has d → d ∈ found'

theorem Finds.nil (hnodup : found.Nodup) (hrange : ∀ m ∈ found, t.Has m) : Finds t [] found found :=
  ⟨fun _ h => h, hnodup, hrange, nofun, fun _ h => .inl h, fun _ h => .inl h⟩

theorem Finds.append (h₁ : Finds t roots found found') (h₂ : Finds t roots' found' found'') :
    Finds t (roots ++ roots') found found'' where
  kept _ h := h₂.kept (h₁.kept h)
  nodup := h₂.nodup
  inRange := h₂.inRange
  started r hr hhas := by
    rcases List.mem_append.1 hr with hr | hr
    · exact h₂.kept (h₁.started r hr hhas)
    · exact h₂.started r hr hhas
  reached m hm := by
    rcases h₂.reached m hm with hm | ⟨r, hr, hreach⟩
    · rcases h₁.reached m hm with hm | ⟨r, hr, hreach⟩
      · exact .inl hm
      · exact .inr ⟨r, List.mem_append_left _ hr, hreach⟩
    · exact .inr ⟨r, List.mem_append_right _ hr, hreach⟩
  closed m hm := by
    rcases h₂.closed m hm with hm | hm
    · exact (h₁.closed m hm).imp_right fun h d hd hhas => h₂.kept (h d hd hhas)
    · exact .inr hm

theorem Finds.length_le (h : Finds t roots found found') (hnodup : found.Nodup) :
    found.length ≤ found'.length :=
  (hnodup.subperm h.kept).length_le

/-- A list of different objects as long as the table has them all. -/
theorem mem_of_size_le (hnodup : found.Nodup) (hrange : ∀ m ∈ found, t.Has m)
    (hsize : t.materializations.size ≤ found.length) (hm : t.Has m) : m ∈ found := by
  have hsub : found ⊆ (List.range t.materializations.size).map MaterializationId.mk := fun d hd =>
    List.mem_map.2 ⟨d.index, List.mem_range.2 (hrange d hd), rfl⟩
  have hperm := (hnodup.subperm hsub).perm_of_length_le (by simpa using hsize)
  exact hperm.mem_iff.2 (List.mem_map.2 ⟨m.index, List.mem_range.2 hm, rfl⟩)

/-- The search from one object. What it found so far and the depth that is left make as many as
there are. -/
theorem collect_finds {depth : Nat} (hnodup : found.Nodup) (hrange : ∀ m ∈ found, t.Has m)
    (hdepth : t.materializations.size ≤ depth + found.length) :
    Finds t [m] found (t.collect depth found m) := by
  induction depth generalizing found m with
  | zero =>
    rw [collect]
    exact ⟨fun _ h => h, hnodup, hrange, fun r _ hr => mem_of_size_le hnodup hrange (by omega) hr,
      fun _ h => .inl h, fun _ h => .inl h⟩
  | succ depth ih =>
    rw [collect]
    cases hm : t.materialization? m with
    | none =>
      refine ⟨fun _ h => h, hnodup, hrange, fun r hr hhas => ?_, fun _ h => .inl h,
        fun _ h => .inl h⟩
      rw [List.mem_singleton.1 hr] at hhas
      obtain ⟨record, hrecord⟩ := has_iff.1 hhas
      rw [hm] at hrecord
      cases hrecord
    | some record =>
      dsimp only
      split
      next hmem =>
        refine ⟨fun _ h => h, hnodup, hrange, fun r hr _ => ?_, fun _ h => .inl h,
          fun _ h => .inl h⟩
        rw [List.mem_singleton.1 hr]
        simpa using hmem
      next hmem =>
        have hnot : m ∉ found := by simpa using hmem
        have hhas : t.Has m := has_iff.2 ⟨record, hm⟩
        -- the objects among the fields, one after the other
        have hdeps : ∀ (ds : List MaterializationId) {found' : List MaterializationId},
          found'.Nodup →
            (∀ m ∈ found', t.Has m) → t.materializations.size ≤ depth + found'.length →
            Finds t ds found' (ds.foldl (t.collect depth) found') := by
          intro ds
          induction ds with
          | nil => exact fun hnodup hrange _ => .nil hnodup hrange
          | cons d ds ihd =>
            intro found' hnodup hrange hdepth
            have hd := ih (m := d) hnodup hrange hdepth
            exact hd.append
              (ihd hd.nodup hd.inRange
                (Nat.le_trans hdepth (Nat.add_le_add_left (hd.length_le hnodup) _)))
        have hfields := hdeps record.dependencies (List.nodup_cons.2 ⟨hnot, hnodup⟩)
          (List.forall_mem_cons.2 ⟨hhas, hrange⟩) (by rw [List.length_cons]; omega)
        refine ⟨fun _ h => hfields.kept (List.mem_cons_of_mem _ h), hfields.nodup, hfields.inRange,
          fun r hr _ => ?_,
          fun d hd => ?_, fun d hd => ?_⟩
        · rw [List.mem_singleton.1 hr]
          exact hfields.kept List.mem_cons_self
        · rcases hfields.reached d hd with hd | ⟨r, hr, hreach⟩
          · rcases List.mem_cons.1 hd with rfl | hd
            · exact .inr ⟨d, List.mem_singleton_self _, .refl⟩
            · exact .inl hd
          · exact .inr ⟨m, List.mem_singleton_self _, .head ⟨record, hm, hr⟩ hreach⟩
        · rcases hfields.closed d hd with hd | hd
          · rcases List.mem_cons.1 hd with rfl | hd
            · refine .inr fun d' ⟨record', hrecord', hd'⟩ hhas' => hfields.started d' ?_ hhas'
              rw [hm] at hrecord'
              cases hrecord'
              exact hd'
            · exact .inl hd
          · exact .inr hd

theorem needed_finds : Finds t e.materializationRoots [] (t.needed e) := by
  rw [needed]
  have hroots : ∀ (roots : List MaterializationId) {found : List MaterializationId}, found.Nodup →
      (∀ m ∈ found, t.Has m) → Finds t roots found (roots.foldl (t.collect t.materializations.size)
        found) := by
    intro roots
    induction roots with
    | nil => exact fun hnodup hrange => .nil hnodup hrange
    | cons r roots ih =>
      intro found hnodup hrange
      have hr := collect_finds (m := r) hnodup hrange (Nat.le_add_right _ _)
      exact hr.append (ih hr.nodup hr.inRange)
  exact hroots _ List.nodup_nil nofun

/-- The variables of an exit hold the object, or objects that hold it, and so on. -/
def Reached (t : ExitTable) (e : OsrExit) (m : MaterializationId) : Prop :=
  ∃ r ∈ e.materializationRoots, t.Reaches r m

theorem Reached.needs (h : t.Reached e m) (hneeds : t.Needs m d) : t.Reached e d := by
  obtain ⟨r, hr, hreach⟩ := h
  exact ⟨r, hr, hreach.tail hneeds⟩

/-- The objects that an exit builds are those that its variables reach. -/
theorem mem_needed_iff : m ∈ t.needed e ↔ t.Has m ∧ t.Reached e m := by
  have hfinds : Finds t e.materializationRoots [] (t.needed e) := needed_finds
  refine ⟨fun hm => ⟨hfinds.inRange m hm, (hfinds.reached m hm).resolve_left (by simp)⟩, ?_⟩
  rintro ⟨hhas, r, hr, hreach⟩
  induction hreach with
  | refl => exact hfinds.started r hr hhas
  | tail _ hneeds ih => exact (hfinds.closed _ (ih hneeds.has)).resolve_left (by simp) _ hneeds hhas

/-! ## Captured values -/

/-- The exit reads the first `n` captured values and no others, itself or through the objects it
needs. -/
structure Measures (t : ExitTable) (e : OsrExit) (n : Nat) : Prop where
  profile : ∀ i, e.profileValue = some i → i < n
  within : ∃ B : MaterializationId → Prop, (∀ v x, e.values.get? v = some x → x.Within n B) ∧
    ∀ m, B m → ∃ record, t.materialization? m = some record ∧ ∀ p ∈ record.properties,
    p.2.Within n B
  all : ∀ i < n, (∃ v x, e.values.get? v = some x ∧ i ∈ x.argumentIndices) ∨
    e.profileValue = some i ∨
    ∃ r ∈ e.materializationRoots, ∃ m record, t.Reaches r m ∧ t.materialization? m = some record ∧
      ∃ p ∈ record.properties, i ∈ p.2.argumentIndices

/-- Every object that an exit reaches has a record with fields that are accounted for. -/
theorem Measures.reached (h : t.Measures e n) : ∃ B : MaterializationId → Prop,
    (∀ v x, e.values.get? v = some x → x.Within n B) ∧
      (∀ m, B m → ∃ record, t.materialization? m = some record ∧ ∀ p ∈ record.properties,
        p.2.Within n B) ∧
      (∀ r ∈ e.materializationRoots, B r) ∧ ∀ m d, B m → t.Needs m d → B d := by
  obtain ⟨B, hvalues, hobjects⟩ := h.within
  refine ⟨B, hvalues, hobjects, fun r hr => ?_, fun m d hm ⟨record, hrecord, hd⟩ => ?_⟩
  · obtain ⟨⟨v, x⟩, hx, hr⟩ := List.mem_filterMap.1 hr
    exact (hvalues v x (Operands.mem_toList.1 hx)).object r hr
  · obtain ⟨record', hrecord', hfields⟩ := hobjects m hm
    rw [hrecord] at hrecord'
    cases hrecord'
    obtain ⟨p, hp, hd⟩ := List.mem_filterMap.1 hd
    exact (hfields p hp).object d hd

/-- The exit takes as many captured values in a table that has the objects of this one. -/
theorem Measures.mono (h : t.Measures e n)
    (ht : ∀ m, t.Has m → t'.materialization? m = t.materialization? m) :
    t'.Measures e n := by
  have hneeds : ∀ m d, t.Needs m d → t'.Needs m d := fun m d hmd => by
    obtain ⟨record, hrecord, hd⟩ := hmd
    exact ⟨record, (ht m (has_iff.2 ⟨record, hrecord⟩)).trans hrecord, hd⟩
  obtain ⟨B, hvalues, hobjects⟩ := h.within
  refine ⟨h.profile, ⟨B, hvalues, fun m hm => ?_⟩, fun i hi => ?_⟩
  · obtain ⟨record, hrecord, hfields⟩ := hobjects m hm
    exact ⟨record, (ht m (has_iff.2 ⟨record, hrecord⟩)).trans hrecord, hfields⟩
  · refine (h.all i hi).imp_right (Or.imp_right fun ⟨r, hr, m, record, hreach, hrecord, hp⟩ => ?_)
    exact ⟨r, hr, m, record, hreach.mono hneeds, (ht m (has_iff.2 ⟨record, hrecord⟩)).trans hrecord,
      hp⟩

theorem mem_capturedIndices {i : Nat} : i ∈ t.capturedIndices e ↔
    (∃ v x, e.values.get? v = some x ∧ i ∈ x.argumentIndices) ∨ e.profileValue = some i ∨
      ∃ m ∈ t.needed e, ∃ record, t.materialization? m = some record ∧ ∃ p ∈ record.properties,
      i ∈ p.2.argumentIndices := by
  rw [capturedIndices, List.mem_append, List.mem_append, or_assoc]
  refine or_congr ?_ (or_congr (by simp) ?_)
  · simp only [List.mem_flatMap, Prod.exists, Operands.mem_toList]
  · simp only [List.mem_flatMap]
    refine exists_congr fun m => and_congr_right fun _ => ?_
    cases t.materialization? m <;> simp

/-- A variable, the profiled value or a field of an object that the exit reaches reads captured
value `i`. -/
def Reads (t : ExitTable) (e : OsrExit) (i : Nat) : Prop :=
  (∃ v x, e.values.get? v = some x ∧ i ∈ x.argumentIndices) ∨ e.profileValue = some i ∨
    ∃ m record, t.Reached e m ∧ t.materialization? m = some record ∧ ∃ p ∈ record.properties,
    i ∈ p.2.argumentIndices

theorem mem_capturedIndices_iff {i : Nat} : i ∈ t.capturedIndices e ↔ t.Reads e i := by
  rw [mem_capturedIndices, Reads]
  refine or_congr_right (or_congr_right ⟨?_, ?_⟩)
  · rintro ⟨m, hm, record, hrecord, hp⟩
    exact ⟨m, record, (mem_needed_iff.1 hm).2, hrecord, hp⟩
  · rintro ⟨m, record, hreach, hrecord, hp⟩
    exact ⟨m, mem_needed_iff.2 ⟨has_iff.2 ⟨record, hrecord⟩, hreach⟩, record, hrecord, hp⟩

theorem foldl_max_mem (l : List Nat) (a : Nat) :
    (∀ i ∈ a :: l, i ≤ l.foldl max a) ∧ l.foldl max a ∈ a :: l := by
  induction l generalizing a with
  | nil => simp
  | cons b l ih =>
    obtain ⟨hle, hmem⟩ := ih (max a b)
    have hmax := hle _ List.mem_cons_self
    refine ⟨fun i hi => ?_, ?_⟩
    · rw [List.foldl_cons]
      rcases List.mem_cons.1 hi with rfl | hi
      · omega
      · rcases List.mem_cons.1 hi with rfl | hi
        · omega
        · exact hle i (List.mem_cons_of_mem _ hi)
    · rw [List.foldl_cons]
      rcases List.mem_cons.1 hmem with h | h
      · rw [h]
        rcases Nat.le_total a b with hab | hab
        · simp [Nat.max_eq_right hab]
        · simp [Nat.max_eq_left hab]
      · exact List.mem_cons_of_mem _ (List.mem_cons_of_mem _ h)

/-- The table gives the number of captured values that the exit reads. -/
theorem stackmapLength?_eq (he : t.exit? id = some e) (h : t.Measures e n) :
    t.stackmapLength? id = some n := by
  have hiff : ∀ i, i ∈ t.capturedIndices e ↔ i < n := by
    obtain ⟨B, hvalues, hobjects, hroots, hneeds⟩ := h.reached
    have hreaches : ∀ r ∈ e.materializationRoots, ∀ m, t.Reaches r m → B m := fun r hr m hm => by
      induction hm with
      | refl => exact hroots r hr
      | tail _ hstep ih => exact hneeds _ _ ih hstep
    refine fun i => mem_capturedIndices.trans ⟨?_, fun hi => ?_⟩
    · rintro (⟨v, x, hx, hi⟩ | hi | ⟨m, hm, record, hrecord, p, hp, hi⟩)
      · exact (hvalues v x hx).indices i hi
      · exact h.profile i hi
      · obtain ⟨-, r, hr, hreach⟩ := mem_needed_iff.1 hm
        obtain ⟨record', hrecord', hfields⟩ := hobjects m (hreaches r hr m hreach)
        rw [hrecord] at hrecord'
        cases hrecord'
        exact (hfields p hp).indices i hi
    · refine (h.all i hi).imp_right (Or.imp_right fun ⟨r, hr, m, record, hreach, hrecord, hp⟩ => ?_)
      exact ⟨m, mem_needed_iff.2 ⟨has_iff.2 ⟨record, hrecord⟩, r, hr, hreach⟩, record, hrecord, hp⟩
  rw [stackmapLength?, he, Option.map_some]
  congr 1
  obtain ⟨hle, hmem⟩ := foldl_max_mem ((t.capturedIndices e).map (· + 1)) 0
  apply Nat.le_antisymm
  · rcases List.mem_cons.1 hmem with h | h
    · omega
    · obtain ⟨i, hi, heq⟩ := List.mem_map.1 h
      have := (hiff i).1 hi
      omega
  · rcases Nat.eq_zero_or_pos n with rfl | hn
    · exact Nat.zero_le _
    · refine hle n
        (List.mem_cons_of_mem _ (List.mem_map.2 ⟨n - 1, (hiff _).2 (by omega), by omega⟩))

/-! ## Taking an exit -/

section Resolve

variable {σ α β : Type}

/-- What the step goes by is not refused; it may still find the table to be wrong. -/
def Unrefused (x : Except DeoptFailure α) : Prop := ∀ e, x ≠ .error (.error e)

theorem Unrefused.ok (a : α) : Unrefused (.ok a) := nofun

theorem Unrefused.bind {x : Except DeoptFailure α} {f : α → Except DeoptFailure β}
    (hx : Unrefused x) (hf : ∀ a, x = .ok a → Unrefused (f a)) : Unrefused (x >>= f) := by
  cases x with
  | error failure =>
    intro e he
    exact hx e (by cases he; rfl)
  | ok a => exact hf a rfl

theorem Unrefused.mapM {f : α → Except DeoptFailure β} {l : List α} (hf : ∀ a ∈ l, Unrefused (f a))
    :
    Unrefused (l.mapM f) := by
  induction l with
  | nil => exact .ok _
  | cons a l ih =>
    rw [List.mapM_cons]
    exact (hf a List.mem_cons_self).bind fun _ _ =>
      (ih fun b hb => hf b (List.mem_cons_of_mem _ hb)).bind fun _ _ => .ok _

/-- A step of building that is not refused and whose result has the property. -/
def Proceeds (x : Resolve σ α) (P : α → Prop) : Prop :=
  ∀ s, Unrefused (x s).1 ∧ ∀ a, (x s).1 = .ok a → P a

theorem Proceeds.pure {P : α → Prop} {a : α} (h : P a) : Proceeds (pure a : Resolve σ α) P :=
  fun _ => ⟨.ok a, fun _ h' => Except.ok.inj h' ▸ h⟩

theorem Proceeds.crash {P : α → Prop} (id : ExitId) (cause : DeoptCause) :
    Proceeds (throw (.crash id cause) : Resolve σ α) P :=
  fun _ => ⟨nofun, nofun⟩

theorem Proceeds.ofExcept {P : α → Prop} {x : Except DeoptFailure α} (h : Unrefused x)
    (hP : ∀ a, x = .ok a → P a) :
    Proceeds (ofExcept x : Resolve σ α) P :=
  fun _ => ⟨h, hP⟩

theorem Proceeds.bind {P : α → Prop} {Q : β → Prop} {x : Resolve σ α} {f : α → Resolve σ β}
    (hx : Proceeds x P) (hf : ∀ a, P a → Proceeds (f a) Q) : Proceeds (x >>= f) Q := by
  intro s
  obtain ⟨hunrefused, hP⟩ := hx s
  have hbind : (x >>= f) s = ExceptT.bindCont f (x s).1 (x s).2 := rfl
  rw [hbind]
  cases hx : (x s).1 with
  | error failure =>
    refine ⟨fun e he => hunrefused e ?_, nofun⟩
    cases he
    exact hx
  | ok a => exact hf a (hP a hx) (x s).2

theorem Proceeds.mapM {f : α → Resolve σ β} {l : List α}
    (hf : ∀ a ∈ l, Proceeds (f a) fun _ => True) :
    Proceeds (l.mapM f) fun _ => True := by
  induction l with
  | nil => exact .pure trivial
  | cons a l ih =>
    rw [List.mapM_cons]
    exact (hf a List.mem_cons_self).bind fun _ _ =>
      (ih fun b hb => hf b (List.mem_cons_of_mem _ hb)).bind fun _ _ => .pure trivial

variable {mat : Materializer σ} {c : Captured} {B : MaterializationId → Prop}
  {cells : Array (Option Word)}

theorem value_unrefused {i : Nat} (h : i < c.stackmap.size) : Unrefused (c.value i) := by
  rw [Captured.value, Array.getElem?_eq_getElem h]
  exact .ok _

theorem boxed_unrefused {x : ExitValue} (h : x.Within c.stackmap.size B) :
    Unrefused (c.boxed cells x) := by
  have hi := h.indices
  cases x with
  | dead | constant => exact .ok _
  | inStack slot format =>
    rw [Captured.boxed]
    split
    · exact .ok _
    · exact nofun
  | argument i format =>
    exact (value_unrefused (hi i (by simp [ExitValue.argumentIndices]))).bind fun _ _ => .ok _
  | recovery op l r format =>
    refine (value_unrefused (hi l (by simp [ExitValue.argumentIndices]))).bind fun _ _ =>
      (value_unrefused (hi r (by simp [ExitValue.argumentIndices]))).bind fun _ _ => ?_
    split
    · exact .ok _
    · exact nofun
  | materialize m =>
    rw [Captured.boxed]
    split
    · exact .ok _
    · exact nofun

/-- The objects of a set whose fields are accounted for, as far as they have records. -/
def Accounts (t : ExitTable) (n : Nat) (B : MaterializationId → Prop) : Prop :=
  ∀ m record, B m → t.materialization? m = some record → ∀ p ∈ record.properties, p.2.Within n B

theorem Accounts.needs (h : t.Accounts n B) (hm : B m) (hneeds : t.Needs m d) : B d := by
  obtain ⟨record, hrecord, hd⟩ := hneeds
  obtain ⟨p, hp, hd⟩ := List.mem_filterMap.1 hd
  exact (h m record hm hrecord p hp).object d hd

theorem buildOne_proceeds (hB : t.Accounts c.stackmap.size B) (hm : B m) :
    Proceeds (t.buildOne mat c cells m) fun _ => True := by
  rw [buildOne]
  cases hrecord : t.materialization? m with
  | none => exact .crash _ _
  | some record =>
    refine .bind (.mapM fun p hp => ?_) fun fields _ => .bind (P :=
      fun _ => True) (fun _ => ⟨nofun, fun _ _ => trivial⟩)
      fun _ _ => .pure trivial
    exact .bind (.ofExcept (boxed_unrefused (hB m record hm hrecord p hp)) fun _ _ => trivial)
      fun _ _ => .pure trivial

theorem buildReady_proceeds (hB : t.Accounts c.stackmap.size B) {pending : List MaterializationId}
    (hpending : ∀ m ∈ pending, B m) :
    Proceeds (t.buildReady mat c pending cells) fun p => ∀ m ∈ p.2, B m := by
  induction pending generalizing cells with
  | nil => exact .pure nofun
  | cons m pending ih =>
    obtain ⟨hm, hrest⟩ := List.forall_mem_cons.1 hpending
    rw [buildReady]
    split
    · exact .bind (buildOne_proceeds hB hm) fun _ _ => ih hrest
    · exact .bind (ih hrest) fun p hp => .pure (List.forall_mem_cons.2 ⟨hm, hp⟩)

theorem buildRounds_proceeds (hB : t.Accounts c.stackmap.size B) {rounds : Nat}
    {pending : List MaterializationId} (hpending : ∀ m ∈ pending, B m) :
    Proceeds (t.buildRounds mat c rounds pending cells) fun _ => True := by
  induction rounds generalizing pending cells with
  | zero => cases pending <;> exact .pure trivial
  | succ rounds ih =>
    cases pending with
    | nil => exact .pure trivial
    | cons m pending =>
      rw [buildRounds]
      · refine .bind (buildReady_proceeds hB hpending) fun p hp => ?_
        dsimp only
        split
        · exact .bind (.crash (P := fun _ => True) _ _) fun _ _ => ih hp
        · exact ih hp
      · simp

theorem reach_mem (hneeds : ∀ m d, B m → t.Needs m d → B d) {steps : Nat}
    {waiting : List MaterializationId} (hfound : ∀ m ∈ found, B m) (hwaiting : ∀ m ∈ waiting, B m)
    (h : t.reach steps found waiting = .ok found') :
    ∀ m ∈ found', B m := by
  induction steps generalizing found waiting with
  | zero =>
    cases waiting <;> cases h <;> exact hfound
  | succ steps ih =>
    cases waiting with
    | nil =>
      cases h
      exact hfound
    | cons m waiting =>
      obtain ⟨hm, hwaiting⟩ := List.forall_mem_cons.1 hwaiting
      rw [reach] at h
      cases hrecord : t.materialization? m with
      | none =>
        rw [hrecord] at h
        cases h
      | some record =>
        rw [hrecord] at h
        dsimp only at h
        split at h
        · exact ih hfound hwaiting h
        · refine ih (List.forall_mem_cons.2 ⟨hm, hfound⟩) (fun d hd => ?_) h
          rcases List.mem_append.1 hd with hd | hd
          · exact hneeds m d hm ⟨record, hrecord, List.mem_reverse.1 hd⟩
          · exact hwaiting d hd

theorem buildAll_proceeds (hB : t.Accounts c.stackmap.size B)
    (hroots : ∀ r ∈ e.materializationRoots, B r) :
    Proceeds (t.buildAll mat c e) fun _ => True := by
  rw [buildAll]
  cases hreach : t.reachable e with
  | error cause => exact .crash _ _
  | ok pending =>
    refine buildRounds_proceeds hB fun m hm => ?_
    rw [reachable] at hreach
    cases hfound : t.reach (e.materializationRoots.reverse.length +
      (t.materializations.map (·.dependencies.length)).foldl (· + ·) 0) []
        e.materializationRoots.reverse with
    | error cause =>
      rw [hfound] at hreach
      cases hreach
    | ok found =>
      rw [hfound] at hreach
      cases hreach
      exact reach_mem (fun _ _ => hB.needs) (by simp) (fun r hr => hroots r (List.mem_reverse.1 hr))
        hfound m
        (List.mem_mergeSort.1 hm)

theorem resolveFrame_unrefused
    (hvalues : ∀ v x, e.values.get? v = some x → x.Within c.stackmap.size B)
    (hprofile : ∀ i, e.profileValue = some i → i < c.stackmap.size) :
    Unrefused (resolveFrame c e cells) := by
  have hall (part : Array ExitValue) (hpart : ∀ x ∈ part, x.Within c.stackmap.size B) :
      Unrefused (part.mapM (c.boxed cells)) := by
    rw [Array.mapM_eq_mapM_toList]
    exact (Unrefused.mapM fun x hx => boxed_unrefused (hpart x (by simpa using hx))).bind
      fun _ _ => .ok _
  have hoperands : Unrefused (resolveOperands c cells e.values) := by
    refine (hall _ fun x hx => ?_).bind fun _ _ => (hall _ fun x hx => ?_).bind fun _ _ => .ok _
    · obtain ⟨i, hi, rfl⟩ := Array.mem_iff_getElem.1 hx
      exact hvalues (.arg i) _ (Array.getElem?_eq_getElem hi)
    · obtain ⟨i, hi, rfl⟩ := Array.mem_iff_getElem.1 hx
      exact hvalues (.loc i) _ (Array.getElem?_eq_getElem hi)
  have hprofiled : Unrefused (e.profileValue.mapM c.value) := by
    cases hi : e.profileValue with
    | none => exact .ok _
    | some i => exact (value_unrefused (hprofile i hi)).bind fun _ _ => .ok _
  exact hoperands.bind fun _ _ => hprofiled.bind fun _ _ => .ok _

/-- An exit whose captured values pass the checks up front is not refused. The search for the number
of captured values covers whatever the building reads. -/
theorem resolve_accepted (he : t.exit? c.exit = some e) (hcheck : t.checkCaptured c e = .ok ())
    (s : σ) :
    Unrefused (t.resolve mat c s).1 := by
  have hreads (i : Nat) (hi : t.Reads e i) : i < c.stackmap.size := by
    have hle := (foldl_max_mem ((t.capturedIndices e).map (· + 1)) 0).1 (i + 1)
      (List.mem_cons_of_mem _ (List.mem_map_of_mem (mem_capturedIndices_iff.2 hi)))
    rw [checkCaptured, stackmapLength?, he, Option.map_some, Option.getD_some] at hcheck
    split at hcheck
    · cases hcheck
    · omega
  have hvalues (v : Operand) (x : ExitValue) (hx : e.values.get? v = some x) :
    x.Within c.stackmap.size (t.Reached e) :=
    ⟨fun i hi => hreads i (.inl ⟨v, x, hx, hi⟩),
      fun m hm => ⟨m, List.mem_filterMap.2 ⟨(v, x), Operands.mem_toList.2 hx, hm⟩, .refl⟩⟩
  have hobjects : t.Accounts c.stackmap.size (t.Reached e) := fun m record hm hrecord p hp =>
    ⟨fun i hi => hreads i (.inr (.inr ⟨m, record, hm, hrecord, p, hp, hi⟩)),
      fun d hd => hm.needs ⟨record, hrecord, List.mem_filterMap.2 ⟨p, hp, hd⟩⟩⟩
  have hproceeds : Proceeds (t.resolve mat c) fun _ => True := by
    rw [resolve, he]
    refine .bind (P := fun _ => True) (.ofExcept ?_ fun _ _ => trivial) fun _ _ =>
      .bind (buildAll_proceeds hobjects fun r hr => ⟨r, hr, .refl⟩) fun cells _ =>
        .ofExcept (resolveFrame_unrefused hvalues fun i hi => hreads i (.inr (.inl hi)))
          fun _ _ => trivial
    rw [hcheck]
    exact .ok _
  exact (hproceeds s).1

/-- Taking an exit is not refused if all captured values are there and the frame has the shape of
the record. -/
theorem resolve_unrefused (he : t.exit? c.exit = some e) (h : t.Measures e c.stackmap.size)
    (hargs : c.frame.arguments.size = e.values.arguments.size)
    (hlocals : c.frame.locals.size = e.values.locals.size) (s : σ) :
    Unrefused (t.resolve mat c s).1 := by
  refine resolve_accepted he ?_ s
  rw [checkCaptured, stackmapLength?_eq he h]
  simp [hargs, hlocals]

end Resolve

end ExitTable

/-!
## Exits that restore the same

Two exits are twins if they are taken for the same reason at the same place, and take the variables
that are live there from the same captured values and from objects that are described in the same
way. Which captured values are the same is given by a relation between their indices, and which
objects are by one between the ids of the two tables.
-/

variable {C C' : Nat → Nat → Prop} {M : MaterializationId → MaterializationId → Prop}

/-- Values that are restored in the same way: from the same constant or slot, from captured values
that are the same according to `C`, or by the same object according to `M`. -/
inductive ExitValue.Twin (C : Nat → Nat → Prop) (M : MaterializationId → MaterializationId → Prop) :
    ExitValue → ExitValue → Prop
  | dead : Twin C M .dead .dead
  | constant (w : Word) : Twin C M (.constant w) (.constant w)
  | inStack (slot : Operand) (format : ValueFormat) : Twin C M (.inStack slot format)
    (.inStack slot format)
  | argument {i i' : Nat} (format : ValueFormat) : C i i' → Twin C M (.argument i format)
    (.argument i' format)
  | recovery (op : RecoveryOp) {i i' j j' : Nat} (format : ValueFormat) : C i i' → C j j' →
      Twin C M (.recovery op i j format) (.recovery op i' j' format)
  | materialize {m m' : MaterializationId} : M m m' → Twin C M (.materialize m) (.materialize m')

theorem ExitValue.Twin.mono {x x' : ExitValue} (h : x.Twin C M x') (hC : ∀ i i', C i i' → C' i i') :
    x.Twin C' M x' := by
  cases h with
  | dead => exact .dead
  | constant w => exact .constant w
  | inStack slot format => exact .inStack slot format
  | argument format h => exact .argument format (hC _ _ h)
  | recovery op format h h' => exact .recovery op format (hC _ _ h) (hC _ _ h')
  | materialize h => exact .materialize h

/-- The two tables describe the objects that go together in the same way. -/
structure ExitTable.SameObjects (t t' : ExitTable) (C : Nat → Nat → Prop)
    (M : MaterializationId → MaterializationId → Prop) :
    Prop where
  unique : ∀ {m m' d d'}, M m m' → M d d' → (m = d ↔ m' = d')
  described : ∀ {m m'}, M m m' → ∃ record record', t.materialization? m = some record ∧
    t'.materialization? m' = some record' ∧ record.kind = record'.kind ∧
    record.origin = record'.origin ∧
    List.Forall₂ (fun p p' => p.1 = p'.1 ∧ p.2.Twin C M p'.2) record.properties record'.properties

/-- The exits of two tables restore the variables in `live` in the same way. -/
structure ExitTable.Twins (t t' : ExitTable) (C : Nat → Nat → Prop) (live : Operand → Prop)
    (e e' : OsrExit) : Prop where
  kind : e.kind = e'.kind
  origin : e.origin = e'.origin
  profile : List.Forall₂ C e.profileValue.toList e'.profileValue.toList
  values : ∃ M, t.SameObjects t' C M ∧
    ∀ v x x', live v → e.values.get? v = some x → e'.values.get? v = some x' → x.Twin C M x'

namespace ExitTable

variable {t t' t₁ t₁' : ExitTable} {live : Operand → Prop} {e e' : OsrExit}

theorem SameObjects.mono (h : t.SameObjects t' C M) (hC : ∀ i i', C i i' → C' i i')
    (ht : ∀ m, t.Has m → t₁.materialization? m = t.materialization? m)
    (ht' : ∀ m, t'.Has m → t₁'.materialization? m = t'.materialization? m) :
    t₁.SameObjects t₁' C' M := by
  refine ⟨h.unique, fun hm => ?_⟩
  obtain ⟨record, record', hrecord, hrecord', hkind, horigin, hfields⟩ := h.described hm
  exact ⟨record, record', (ht _ (has_iff.2 ⟨_, hrecord⟩)).trans hrecord,
    (ht' _ (has_iff.2 ⟨_, hrecord'⟩)).trans hrecord', hkind,
    horigin, hfields.imp fun _ _ hp => ⟨hp.1, hp.2.mono hC⟩⟩

/-- Twins stay twins in tables that have more objects. -/
theorem Twins.mono (h : t.Twins t' C live e e') (hC : ∀ i i', C i i' → C' i i')
    (ht : ∀ m, t.Has m → t₁.materialization? m = t.materialization? m)
    (ht' : ∀ m, t'.Has m → t₁'.materialization? m = t'.materialization? m) :
    t₁.Twins t₁' C' live e e' := by
  obtain ⟨M, hobjects, hvalues⟩ := h.values
  exact ⟨h.kind, h.origin, h.profile.imp hC, M, hobjects.mono hC ht ht',
    fun v x x' hv hx hx' => (hvalues v x x' hv hx hx').mono hC⟩

end ExitTable

end SpecJit
