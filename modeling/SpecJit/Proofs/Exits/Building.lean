import Mathlib.Algebra.BigOperators.Fin
import SpecJit.Proofs.Exits.Table
import SpecJit.Proofs.Results

/-!
# How an exit builds its objects

The objects that an exit needs are built in rounds, each when the objects among its fields are
there. `Materializer.logged` keeps a list of what was built. After any number of rounds the list and
the cells say the same, every built object was described by the table, no built object needs itself,
and each one came after those that it needs (`Constructed`). The rounds come to an end if the
objects that wait hold each other without a cycle and their fields can be read
(`buildRounds_succeeds`).
-/

namespace SpecJit

variable {σ α β : Type}

/-- A materializer that keeps a list of the objects it built, with their addresses. -/
def Materializer.logged (mat : Materializer σ) :
    Materializer (σ × List (MaterializedFields × Word)) where
  build d s := ((mat.build d s.1).1, (mat.build d s.1).2, s.2 ++ [(d, (mat.build d s.1).1)])

/-- The value stands for the word: a constant, what a slot or a captured value holds, boxed from its
format, the result of arithmetic on two captured values, or the address of an object of the list. -/
inductive ExitValue.Restores (c : Captured) (log : List (MaterializedFields × Word)) :
    ExitValue → Word → Prop
  | dead : Restores c log .dead Value.undefined
  | constant (w : Word) : Restores c log (.constant w) w
  | inStack {slot : Operand} {raw : Word} (format : ValueFormat) : c.frame.get? slot = some raw →
      Restores c log (.inStack slot format) (format.rebox raw)
  | argument {i : Nat} {raw : Word} (format : ValueFormat) : c.stackmap[i]? = some raw →
      Restores c log (.argument i format) (format.rebox raw)
  | recovery {op : RecoveryOp} {i j : Nat} {left right raw : Word} {format : ValueFormat} :
    c.stackmap[i]? = some left →
      c.stackmap[j]? = some right → op.recover? left right format = some raw →
      Restores c log (.recovery op i j format) (format.rebox raw)
  | materialize {d : MaterializedFields} {w : Word} : (d, w) ∈ log →
    Restores c log (.materialize d.id) w

namespace ExitTable

/-! ## Steps -/

section Steps

variable {s s' : σ} {x : Resolve σ α} {f : α → Resolve σ β} {a : α} {b : β}

theorem resolve_bind_ok :
    (x >>= f) s = (.ok b, s') ↔ ∃ a s₁, x s = (.ok a, s₁) ∧ f a s₁ = (.ok b, s') := by
  have hbind : (x >>= f) s = ExceptT.bindCont f (x s).1 (x s).2 := rfl
  rw [hbind]
  obtain ⟨r, s₁⟩ := x s
  cases r with
  | error e => exact ⟨nofun, nofun⟩
  | ok a => exact ⟨fun h => ⟨a, s₁, rfl, h⟩, fun ⟨_, _, he, h⟩ => by cases he; exact h⟩

theorem resolve_bind_of_ok (h : x s = (.ok a, s')) : (x >>= f) s = f a s' := by
  have hbind : (x >>= f) s = ExceptT.bindCont f (x s).1 (x s).2 := rfl
  rw [hbind, h]
  rfl

theorem resolve_bind_of_error {failure : DeoptFailure} (h : x s = (.error failure, s')) :
    (x >>= f) s = (.error failure, s') := by
  have hbind : (x >>= f) s = ExceptT.bindCont f (x s).1 (x s).2 := rfl
  rw [hbind, h]
  rfl

theorem resolve_pure_ok {a' : α} : (pure a : Resolve σ α) s = (.ok a', s') ↔ a = a' ∧ s = s' := by
  constructor
  · intro h
    cases h
    exact ⟨rfl, rfl⟩
  · rintro ⟨rfl, rfl⟩
    rfl

theorem ofExcept_ok {y : Except DeoptFailure α} :
    (ofExcept y : Resolve σ α) s = (.ok a, s') ↔ y = .ok a ∧ s = s' := by
  rw [ofExcept, Prod.mk.injEq]

/-- The fields of an object are read one after the other. -/
theorem fields_ok {f : ExitValue → Except DeoptFailure Word}
    {l : List (PromotedLocation × ExitValue)} {fields : List (PromotedLocation × Word)} :
    (l.mapM (fun p => do return (p.1, ← ofExcept (f p.2))) : Resolve σ
      (List (PromotedLocation × Word))) s = (.ok fields, s') ↔
      List.Forall₂ (fun p q => p.1 = q.1 ∧ f p.2 = .ok q.2) l fields ∧ s = s' := by
  induction l generalizing s s' fields with
  | nil =>
    rw [List.mapM_nil, resolve_pure_ok, List.forall₂_nil_left_iff, eq_comm (a := [])]
  | cons p l ih =>
    simp only [List.mapM_cons, resolve_bind_ok, resolve_pure_ok, ofExcept_ok, ih,
      List.forall₂_cons_left_iff]
    constructor
    · rintro ⟨_, _, ⟨w, _, ⟨hw, rfl⟩, rfl, rfl⟩, qs, _, ⟨hqs, rfl⟩, rfl, rfl⟩
      exact ⟨⟨_, _, ⟨rfl, hw⟩, hqs, rfl⟩, rfl⟩
    · rintro ⟨⟨q, qs, ⟨hq, hw⟩, hqs, rfl⟩, rfl⟩
      exact ⟨_, _, ⟨_, _, ⟨hw, rfl⟩, rfl, rfl⟩, _, _, ⟨hqs, rfl⟩, by rw [hq], rfl⟩

end Steps

/-! ## Cells -/

variable {t : ExitTable} {c : Captured} {cells cells' : Array (Option Word)}
  {m d : MaterializationId} {w : Word} {x : ExitValue}

/-- The object is built. -/
def Built (cells : Array (Option Word)) (m : MaterializationId) : Prop :=
  ∃ w, cells[m.index]? = some (some w)

theorem built_iff_isSome : cells[m.index]?.join.isSome = true ↔ Built cells m := by
  rw [Option.isSome_iff_exists]
  exact exists_congr fun w => Option.join_eq_some_iff

/-- What is built in the first cells is so in the other ones. -/
def CellsLe (cells cells' : Array (Option Word)) : Prop :=
  ∀ (i : Nat) w, cells[i]? = some (some w) → cells'[i]? = some (some w)

theorem Built.mono (h : Built cells m) (hle : CellsLe cells cells') : Built cells' m :=
  h.imp fun _ => hle _ _

/-- More objects do not change what is read. -/
theorem boxed_mono (hle : CellsLe cells cells') (h : c.boxed cells x = .ok w) :
    c.boxed cells' x = .ok w := by
  cases x with
  | materialize m =>
    rw [Captured.boxed] at h ⊢
    split at h
    · rename_i cell hcell
      rw [Option.join_eq_some_iff] at hcell
      rw [hle _ _ hcell]
      exact h
    · cases h
  | dead | constant | inStack | argument | recovery => exact h

theorem boxed_materialize :
    c.boxed cells (.materialize m) = .ok w ↔ cells[m.index]? = some (some w) := by
  rw [Captured.boxed, ← Option.join_eq_some_iff]
  cases cells[m.index]?.join with
  | none => simp [Captured.crash]
  | some cell => simp

/-- The value can be read once the object it is, if any, is built. -/
def Readable (c : Captured) (x : ExitValue) : Prop :=
  ∀ cells, (∀ d, x.materialization? = some d → Built cells d) → ∃ w, c.boxed cells x = .ok w

/-- The object can be built once the objects among its fields are. -/
def Buildable (t : ExitTable) (c : Captured) (m : MaterializationId) : Prop :=
  ∃ record, t.materialization? m = some record ∧ ∀ p ∈ record.properties, Readable c p.2

/-- An object that is ready has a record, and what it needs is built. -/
theorem isReady_iff : t.isReady cells m = true ↔ t.Has m ∧ ∀ d, t.Needs m d → Built cells d := by
  rw [isReady, Option.any_eq_true, has_iff]
  constructor
  · rintro ⟨record, hrecord, hall⟩
    refine ⟨⟨record, hrecord⟩, fun d ⟨record', hrecord', hd⟩ => ?_⟩
    rw [hrecord] at hrecord'
    cases hrecord'
    exact built_iff_isSome.1 (List.all_eq_true.1 hall d hd)
  · rintro ⟨⟨record, hrecord⟩, hbuilt⟩
    exact ⟨record, hrecord, List.all_eq_true.2 fun d hd => built_iff_isSome.2
      (hbuilt d ⟨record, hrecord, hd⟩)⟩

/-! ## What is built -/

/-- Object `d` comes next after the objects of the list: it is none of them, those that it needs are
among them, and its fields are those of the record, restored with the help of the list. -/
structure ComesNext (t : ExitTable) (c : Captured) (log : List (MaterializedFields × Word))
    (d : MaterializedFields) : Prop where
  new : ∀ p ∈ log, p.1.id ≠ d.id
  needs : ∀ m, t.Needs d.id m → ∃ p ∈ log, p.1.id = m
  described : ∃ record, t.materialization? d.id = some record ∧ d.kind = record.kind ∧
    d.origin = record.origin ∧
    List.Forall₂ (fun p q => p.1 = q.1 ∧ p.2.Restores c log q.2) record.properties d.fields

/-- What was built so far (module doc). -/
structure Constructed (t : ExitTable) (c : Captured) (cells : Array (Option Word))
    (log : List (MaterializedFields × Word)) : Prop where
  size : cells.size = t.materializations.size
  described : ∀ {d w}, (d, w) ∈ log → cells[d.id.index]? = some (some w) ∧ ∃ record,
    t.materialization? d.id = some record ∧
    d.kind = record.kind ∧ d.origin = record.origin ∧
      List.Forall₂ (fun p q => p.1 = q.1 ∧ c.boxed cells p.2 = .ok q.2) record.properties d.fields
  logged : ∀ {m w}, cells[m.index]? = some (some w) → ∃ d, d.id = m ∧ (d, w) ∈ log
  grounded : ∀ {m}, Built cells m → Acc (fun d m => t.Needs m d) m
  ordered : ∀ {before d w after}, log = before ++ (d, w) :: after → t.ComesNext c before d

variable {log : List (MaterializedFields × Word)} {mat : Materializer σ}
  {s s' : σ × List (MaterializedFields × Word)} {pending waiting : List MaterializationId}

theorem not_built_start {n : Nat} : ¬ Built (Array.replicate n none) m := by
  rintro ⟨w, hw⟩
  rw [Array.getElem?_replicate] at hw
  split at hw <;> cases hw

theorem Constructed.start : Constructed t c (Array.replicate t.materializations.size none) [] :=
  ⟨by
    simp, nofun, fun h => absurd ⟨_, h⟩ not_built_start, fun h => absurd h not_built_start,
    fun h => by simp at h⟩

theorem value_ok_iff {i : Nat} : c.value i = .ok w ↔ c.stackmap[i]? = some w := by
  rw [Captured.value]
  cases c.stackmap[i]? with
  | none => simp
  | some v => exact ⟨fun h => by cases h; rfl, fun h => by cases h; rfl⟩

/-- What is read is what the value stands for. -/
theorem Constructed.restores (h : Constructed t c cells log) (hw : c.boxed cells x = .ok w) :
    x.Restores c log w := by
  cases x with
  | dead =>
    cases hw
    exact .dead
  | constant =>
    cases hw
    exact .constant _
  | inStack slot format =>
    rw [Captured.boxed] at hw
    split at hw
    · rename_i raw hraw
      cases hw
      exact .inStack format hraw
    · cases hw
  | argument i format =>
    obtain ⟨raw, hraw, hw⟩ := bind_eq_ok_iff.1 hw
    cases hw
    exact .argument format (value_ok_iff.1 hraw)
  | recovery op i j format =>
    obtain ⟨left, hleft, hw⟩ := bind_eq_ok_iff.1 hw
    obtain ⟨right, hright, hw⟩ := bind_eq_ok_iff.1 hw
    split at hw
    · rename_i raw hraw
      cases hw
      exact .recovery (value_ok_iff.1 hleft) (value_ok_iff.1 hright) hraw
    · cases hw
  | materialize m =>
    obtain ⟨d, rfl, hd⟩ := h.logged (boxed_materialize.1 hw)
    exact .materialize hd

/-- One object is built, from the fields that the table describes. -/
theorem buildOne_ok (hx : t.buildOne mat.logged c cells m s = (.ok cells', s')) : ∃ record fields w,
    t.materialization? m = some record ∧
      List.Forall₂ (fun p q => p.1 = q.1 ∧ c.boxed cells p.2 = .ok q.2) record.properties fields ∧
      cells' = cells.setIfInBounds m.index (some w) ∧ s'.2 = s.2 ++
      [(⟨m, record.kind, record.origin, fields⟩, w)] := by
  rw [ExitTable.buildOne] at hx
  cases hrecord : t.materialization? m with
  | none =>
    rw [hrecord] at hx
    cases hx
  | some record =>
    rw [hrecord] at hx
    obtain ⟨fields, s₁, hread, hx⟩ := resolve_bind_ok.1 hx
    obtain ⟨hfields, rfl⟩ := fields_ok.1 hread
    obtain ⟨cell, s₂, hbuild, hx⟩ := resolve_bind_ok.1 hx
    obtain ⟨rfl, rfl⟩ := resolve_pure_ok.1 hx
    cases hbuild
    exact ⟨record, fields, _, rfl, hfields, rfl, rfl⟩

/-- One more object is there. -/
theorem Constructed.buildOne (h : Constructed t c cells s.2) (hnew : ¬ Built cells m)
    (hready : t.isReady cells m = true) (hx : t.buildOne mat.logged c cells m s = (.ok cells', s'))
    :
    Constructed t c cells' s'.2 ∧ CellsLe cells cells' ∧ ∀ d, Built cells' d ↔ Built cells d ∨
      d = m := by
  obtain ⟨record, fields, w, hrecord, hfields, rfl, hlog⟩ := buildOne_ok hx
  have hindex : m.index < cells.size := h.size ▸ (Array.getElem?_eq_some_iff.1 hrecord).1
  have hself : (cells.setIfInBounds m.index (some w))[m.index]? = some (some w) := by simp [hindex]
  have hother {i : Nat} (hi : m.index ≠ i) : (cells.setIfInBounds m.index (some w))[i]?
    = cells[i]? := by simp [hi]
  have hle : CellsLe cells (cells.setIfInBounds m.index (some w)) := fun i v hv => by
    by_cases hi : m.index = i
    · exact absurd ⟨v, by rw [hi]; exact hv⟩ hnew
    · rw [hother hi]
      exact hv
  have hiff (d : MaterializationId) : Built (cells.setIfInBounds m.index (some w)) d ↔
    Built cells d ∨ d = m := by
    by_cases hi : m.index = d.index
    · obtain rfl := MaterializationId.eq_of_index hi
      exact ⟨fun _ => .inr rfl, fun _ => ⟨w, hself⟩⟩
    · have hne : d ≠ m := fun he => hi (congrArg _ he.symm)
      simp [Built, hother hi, hne]
  rw [hlog]
  refine ⟨⟨by simpa using h.size, fun {d v} hd => ?_, fun {m' v} hv => ?_, fun {m'} hm' => ?_,
    fun {before d v after} hsplit => ?_⟩, hle, hiff⟩
  · rcases List.mem_append.1 hd with hd | hd
    · obtain ⟨hcell, record', hrecord', hkind, horigin, hall⟩ := h.described hd
      exact ⟨hle _ _ hcell, record', hrecord', hkind, horigin, hall.imp fun _ _ hp =>
        ⟨hp.1, boxed_mono hle hp.2⟩⟩
    · obtain ⟨rfl, rfl⟩ := Prod.mk.inj (List.mem_singleton.1 hd)
      exact ⟨hself, record, hrecord, rfl, rfl, hfields.imp fun _ _ hp =>
        ⟨hp.1, boxed_mono hle hp.2⟩⟩
  · by_cases hi : m.index = m'.index
    · obtain rfl := MaterializationId.eq_of_index hi
      rw [hself] at hv
      cases hv
      exact ⟨_, rfl, List.mem_append_right _ (List.mem_singleton_self _)⟩
    · rw [hother hi] at hv
      obtain ⟨d, hid, hmem⟩ := h.logged hv
      exact ⟨d, hid, List.mem_append_left _ hmem⟩
  · rcases (hiff m').1 hm' with hm' | rfl
    · exact h.grounded hm'
    · exact ⟨_, fun d hneeds => h.grounded ((isReady_iff.1 hready).2 d hneeds)⟩
  · rcases List.eq_nil_or_concat after with rfl | ⟨rest, last, rfl⟩
    · -- the object that was built now
      obtain ⟨rfl, hlast⟩ := List.append_inj' hsplit rfl
      cases hlast
      refine ⟨fun p hp (he : p.1.id = m) => hnew ⟨p.2, ?_⟩, fun d hneeds => ?_, record, hrecord,
        rfl, rfl,
        hfields.imp fun _ _ hp => ⟨hp.1, h.restores hp.2⟩⟩
      · rw [← he]
        exact (h.described hp).1
      · obtain ⟨v, hv⟩ := (isReady_iff.1 hready).2 d hneeds
        obtain ⟨p, hid, hmem⟩ := h.logged hv
        exact ⟨(p, v), hmem, hid⟩
    · rw [List.concat_eq_append, ← List.cons_append, ← List.append_assoc] at hsplit
      exact h.ordered (List.append_inj' hsplit rfl).1

/-- What the fields of an object that is built were read as. -/
theorem Constructed.reads (h : Constructed t c cells log) (hm : Built cells m) :
    ∃ record, t.materialization? m = some record ∧
    ∀ p ∈ record.properties, ∃ w, c.boxed cells p.2 = .ok w := by
  obtain ⟨w, hw⟩ := hm
  obtain ⟨d, rfl, hd⟩ := h.logged hw
  obtain ⟨-, record, hrecord, -, -, hfields⟩ := h.described hd
  refine ⟨record, hrecord, fun p hp => ?_⟩
  obtain ⟨q, -, -, hq⟩ := exists_mem_of_forall₂ hfields hp
  exact ⟨q.2, hq⟩

theorem Constructed.needs (h : Constructed t c cells log) (hm : Built cells m)
    (hneeds : t.Needs m d) : Built cells d := by
  obtain ⟨record, hrecord, hread⟩ := h.reads hm
  obtain ⟨record', hrecord', hd⟩ := hneeds
  obtain rfl := Option.some.inj (hrecord.symm.trans hrecord')
  obtain ⟨⟨location, x⟩, hp, hx⟩ := List.mem_filterMap.1 hd
  obtain ⟨w, hw⟩ := hread _ hp
  cases x with
  | materialize =>
    cases hx
    exact ⟨w, boxed_materialize.1 hw⟩
  | _ => cases hx

/-- What one round over the objects that wait does. -/
structure RoundDone (t : ExitTable) (c : Captured) (pending : List MaterializationId)
    (cells : Array (Option Word)) (waiting : List MaterializationId) (cells' : Array (Option Word))
    (log : List (MaterializedFields × Word)) : Prop where
  constructed : Constructed t c cells' log
  le : CellsLe cells cells'
  sublist : waiting.Sublist pending
  unbuilt : ∀ m ∈ waiting, ¬ Built cells' m
  done : ∀ m ∈ pending, m ∈ waiting ∨ Built cells' m
  only : ∀ m, Built cells' m → Built cells m ∨ m ∈ pending
  ready : ∀ m ∈ pending, t.isReady cells m = true → Built cells' m

theorem isReady_mono (hle : CellsLe cells cells') (h : t.isReady cells m = true) :
    t.isReady cells' m = true :=
  isReady_iff.2 ⟨(isReady_iff.1 h).1, fun d hd => ((isReady_iff.1 h).2 d hd).mono hle⟩

theorem Constructed.buildReady (h : Constructed t c cells s.2) (hnodup : pending.Nodup)
    (hnew : ∀ m ∈ pending, ¬ Built cells m)
    (hx : t.buildReady mat.logged c pending cells s = (.ok (cells', waiting), s')) :
    RoundDone t c pending cells waiting cells' s'.2 := by
  induction pending generalizing cells s waiting with
  | nil =>
    obtain ⟨hcells, rfl⟩ := resolve_pure_ok.1 hx
    cases hcells
    exact ⟨h, fun _ _ hw => hw, .slnil, nofun, nofun, fun _ hm => .inl hm, nofun⟩
  | cons m pending ih =>
    obtain ⟨hm, hnodup⟩ := List.nodup_cons.1 hnodup
    obtain ⟨hnewm, hnew⟩ := List.forall_mem_cons.1 hnew
    rw [ExitTable.buildReady] at hx
    split at hx
    · rename_i hready
      obtain ⟨cells₁, s₁, hone, hx⟩ := resolve_bind_ok.1 hx
      obtain ⟨h₁, hle₁, hiff⟩ := h.buildOne hnewm hready hone
      have hr := ih h₁ hnodup (fun d hd hbuilt => by
        rcases (hiff d).1 hbuilt with hbuilt | rfl
        · exact hnew d hd hbuilt
        · exact hm hd) hx
      have hbuilt : Built cells' m := ((hiff m).2 (.inr rfl)).mono hr.le
      refine ⟨hr.constructed, fun i w hw => hr.le i w (hle₁ i w hw), hr.sublist.cons _, hr.unbuilt,
        fun d hd => ?_,
        fun d hd => ?_, fun d hd hready => ?_⟩
      · rcases List.mem_cons.1 hd with rfl | hd
        · exact .inr hbuilt
        · exact hr.done d hd
      · rcases hr.only d hd with hd | hd
        · exact ((hiff d).1 hd).imp_right fun (he : d = m) => by rw [he]; exact List.mem_cons_self
        · exact .inr (List.mem_cons_of_mem _ hd)
      · rcases List.mem_cons.1 hd with rfl | hd
        · exact hbuilt
        · exact hr.ready d hd (isReady_mono hle₁ hready)
    · rename_i hnot
      obtain ⟨⟨cells₁, waiting₁⟩, s₁, hrest, hx⟩ := resolve_bind_ok.1 hx
      obtain ⟨hcells, rfl⟩ := resolve_pure_ok.1 hx
      cases hcells
      have hr := ih h hnodup hnew hrest
      refine ⟨hr.constructed, hr.le, hr.sublist.cons_cons _,
        List.forall_mem_cons.2 ⟨fun hbuilt => ?_, hr.unbuilt⟩, fun d hd => ?_,
        fun d hd => (hr.only d hd).imp_right (List.mem_cons_of_mem _), fun d hd hready => ?_⟩
      · rcases hr.only m hbuilt with hbuilt | hmem
        · exact hnewm hbuilt
        · exact hm hmem
      · rcases List.mem_cons.1 hd with rfl | hd
        · exact .inl List.mem_cons_self
        · exact (hr.done d hd).imp_left (List.mem_cons_of_mem _)
      · rcases List.mem_cons.1 hd with rfl | hd
        · exact absurd hready hnot
        · exact hr.ready d hd hready

/-! ## Rounds -/

/-- The rounds, once they are over, have built what waited. -/
theorem Constructed.buildRounds {rounds : Nat} (h : Constructed t c cells s.2)
    (hnodup : pending.Nodup) (hnew : ∀ m ∈ pending, ¬ Built cells m)
    (hrounds : pending.length ≤ rounds)
    (hx : t.buildRounds mat.logged c rounds pending cells s = (.ok cells', s')) :
    Constructed t c cells' s'.2 ∧ ∀ m, Built cells' m ↔ Built cells m ∨ m ∈ pending := by
  induction rounds generalizing pending cells s with
  | zero =>
    obtain rfl := List.length_eq_zero_iff.1 (Nat.le_zero.1 hrounds)
    obtain ⟨rfl, rfl⟩ := resolve_pure_ok.1 hx
    exact ⟨h, by simp⟩
  | succ rounds ih =>
    cases pending with
    | nil =>
      obtain ⟨rfl, rfl⟩ := resolve_pure_ok.1 hx
      exact ⟨h, by simp⟩
    | cons m pending =>
      rw [ExitTable.buildRounds] at hx
      · obtain ⟨⟨cells₁, waiting⟩, s₁, hround, hx⟩ := resolve_bind_ok.1 hx
        have hr := h.buildReady hnodup hnew hround
        dsimp only at hx
        split at hx
        · obtain ⟨_, _, hthrow, -⟩ := resolve_bind_ok.1 hx
          cases hthrow
        · rename_i hless
          have hlength := hr.sublist.length_le
          obtain ⟨h', hiff⟩ := ih hr.constructed (hr.sublist.nodup hnodup) hr.unbuilt (by omega) hx
          refine ⟨h', fun d => (hiff d).trans ⟨?_, ?_⟩⟩
          · rintro (hd | hd)
            · exact hr.only d hd
            · exact .inr (hr.sublist.subset hd)
          · rintro (hd | hd)
            · exact .inl (hd.mono hr.le)
            · exact (hr.done d hd).symm
      · simp

variable (mat s) in
theorem buildOne_succeeds (h : Buildable t c m) (hready : t.isReady cells m = true) :
    ∃ cells' s', t.buildOne mat.logged c cells m s = (.ok cells', s') := by
  obtain ⟨record, hrecord, hfields⟩ := h
  have hread : ∀ p ∈ record.properties, ∃ q : PromotedLocation × Word, p.1 = q.1 ∧
    c.boxed cells p.2 = .ok q.2 := fun p hp => by
    obtain ⟨w, hw⟩ := hfields p hp cells fun d hd =>
      (isReady_iff.1 hready).2 d ⟨record, hrecord, List.mem_filterMap.2 ⟨p, hp, hd⟩⟩
    exact ⟨(p.1, w), rfl, hw⟩
  obtain ⟨fields, hfields⟩ := exists_forall₂ hread
  let built := mat.logged.build ⟨m, record.kind, record.origin, fields⟩ s
  refine ⟨cells.setIfInBounds m.index (some built.1), built.2, ?_⟩
  rw [ExitTable.buildOne, hrecord]
  exact resolve_bind_ok.2 ⟨fields, s, fields_ok.2 ⟨hfields, rfl⟩, rfl⟩

variable (mat cells s) in
theorem buildReady_succeeds (h : ∀ m ∈ pending, Buildable t c m) :
    ∃ r s', t.buildReady mat.logged c pending cells s = (.ok r, s') := by
  induction pending generalizing cells s with
  | nil => exact ⟨_, _, rfl⟩
  | cons m pending ih =>
    obtain ⟨hm, hrest⟩ := List.forall_mem_cons.1 h
    rw [ExitTable.buildReady]
    split
    · rename_i hready
      obtain ⟨cells₁, s₁, hone⟩ := buildOne_succeeds mat s hm hready
      obtain ⟨r, s', hr⟩ := ih cells₁ s₁ hrest
      exact ⟨r, s', resolve_bind_ok.2 ⟨cells₁, s₁, hone, hr⟩⟩
    · obtain ⟨r, s', hr⟩ := ih cells s hrest
      exact ⟨_, s', resolve_bind_ok.2 ⟨r, s', hr, rfl⟩⟩

/-- Among objects that hold each other without a cycle there is one that needs none of the others.
-/
theorem exists_first (hm : m ∈ pending) (hacc : Acc (fun d m => t.Needs m d) m) :
    ∃ m ∈ pending, ∀ d, t.Needs m d → d ∉ pending := by
  induction hacc with
  | intro m _ ih =>
    by_cases hnone : ∀ d, t.Needs m d → d ∉ pending
    · exact ⟨m, hm, hnone⟩
    · push Not at hnone
      obtain ⟨d, hneeds, hd⟩ := hnone
      exact ih d hneeds hd

variable (mat) in
/-- The rounds come to an end if no object needs itself and the fields can be read. -/
theorem buildRounds_succeeds (rounds : Nat) (h : Constructed t c cells s.2) (hnodup : pending.Nodup)
    (hnew : ∀ m ∈ pending, ¬ Built cells m) (hbuildable : ∀ m ∈ pending, Buildable t c m)
    (hacc : ∀ m ∈ pending, Acc (fun d m => t.Needs m d) m)
    (hclosed : ∀ m ∈ pending, ∀ d, t.Needs m d → Built cells d ∨ d ∈ pending) :
    ∃ cells' s', t.buildRounds mat.logged c rounds pending cells s = (.ok cells', s') := by
  induction rounds generalizing pending cells s with
  | zero => cases pending <;> exact ⟨_, _, rfl⟩
  | succ rounds ih =>
    cases pending with
    | nil => exact ⟨_, _, rfl⟩
    | cons m pending =>
      rw [ExitTable.buildRounds]
      · obtain ⟨⟨cells₁, waiting⟩, s₁, hround⟩ := buildReady_succeeds cells mat s hbuildable
        have hr := h.buildReady hnodup hnew hround
        -- the one that needs no other is built in this round
        obtain ⟨d, hd, hfirst⟩ := exists_first List.mem_cons_self (hacc m List.mem_cons_self)
        have hready : t.isReady cells d = true := isReady_iff.2 ⟨by
          obtain ⟨record, hrecord, -⟩ := hbuildable d hd
          exact has_iff.2 ⟨record, hrecord⟩, fun d' hneeds => (hclosed d hd d' hneeds).resolve_right
            (hfirst d' hneeds)⟩
        have hless : ¬ waiting.length = (m :: pending).length := fun heq => by
          have hall := hr.sublist.eq_of_length heq
          exact hr.unbuilt d (hall ▸ hd) (hr.ready d hd hready)
        obtain ⟨cells', s', hrest⟩ := ih hr.constructed (hr.sublist.nodup hnodup) hr.unbuilt
          (fun d hd => hbuildable d (hr.sublist.subset hd))
            (fun d hd => hacc d (hr.sublist.subset hd)) fun d hd d' hneeds => by
            rcases hclosed d (hr.sublist.subset hd) d' hneeds with hd' | hd'
            · exact .inl (hd'.mono hr.le)
            · exact (hr.done d' hd').symm
        refine ⟨cells', s', resolve_bind_ok.2 ⟨(cells₁, waiting), s₁, hround, ?_⟩⟩
        dsimp only
        rw [if_neg hless]
        exact hrest
      · simp

/-! ## The objects to build -/

variable {steps : Nat} {found found' : List MaterializationId} {e : OsrExit}
  {B : MaterializationId → Prop}

theorem reach_nodup (hnodup : found.Nodup) (h : t.reach steps found waiting = .ok found') :
    found'.Nodup := by
  induction steps generalizing found waiting with
  | zero => cases waiting <;> cases h <;> exact hnodup
  | succ steps ih =>
    cases waiting with
    | nil =>
      cases h
      exact hnodup
    | cons m waiting =>
      rw [reach] at h
      split at h
      · cases h
      · split at h
        · exact ih hnodup h
        · rename_i hnot
          exact ih (List.nodup_cons.2 ⟨by simpa using hnot, hnodup⟩) h

/-- How many objects the object has among its fields. -/
def edgesOf (t : ExitTable) (i : Nat) : Nat :=
  (t.materializations[i]?.map (·.dependencies.length)).getD 0

/-- The fields that are yet to be gone through. -/
def edgesLeft (t : ExitTable) (found : List MaterializationId) : Nat :=
  ∑ i ∈ (Finset.range t.materializations.size).filter fun i => (⟨i⟩ : MaterializationId) ∉ found,
    t.edgesOf i

theorem edgesLeft_nil :
    t.edgesLeft [] = (t.materializations.map (·.dependencies.length)).foldl (· + ·) 0 := by
  have hlist : t.materializations.toList.map (·.dependencies.length) =
      List.ofFn fun i : Fin t.materializations.size => t.edgesOf i :=
    List.ext_getElem (by simp) fun i _ _ => by simp [edgesOf]
  rw [edgesLeft, ← Array.foldl_toList, Array.toList_map, hlist, ← List.sum_eq_foldl, List.sum_ofFn,
    Finset.filter_true_of_mem fun _ _ => List.not_mem_nil, Finset.sum_range]

theorem edgesLeft_cons {record : Materialization} (hm : t.materialization? m = some record)
    (hnot : m ∉ found) :
    t.edgesLeft (m :: found) + record.dependencies.length = t.edgesLeft found := by
  have hlt := (Array.getElem?_eq_some_iff.1 hm).1
  have herase : (Finset.range t.materializations.size).filter (fun i => (⟨i⟩ : MaterializationId) ∉
    m :: found) =
      ((Finset.range t.materializations.size).filter fun i => (⟨i⟩ : MaterializationId) ∉
        found).erase m.index := by
    ext i
    have hi : (⟨i⟩ : MaterializationId) = m ↔ i = m.index :=
      ⟨fun h => congrArg MaterializationId.index h, fun h => MaterializationId.eq_of_index h⟩
    simp only [Finset.mem_filter, Finset.mem_erase, List.mem_cons, not_or, hi]
    tauto
  have hedges : t.edgesOf m.index = record.dependencies.length := by
    rw [materialization?] at hm
    simp [edgesOf, hm]
  rw [edgesLeft, herase, ← hedges, Nat.add_comm]
  exact Finset.add_sum_erase _ _ (Finset.mem_filter.2 ⟨Finset.mem_range.2 hlt, hnot⟩)

variable (steps) in
/-- The search finds all that is needed, if the table describes it. -/
theorem reach_finds (hneeds : ∀ m d, B m → t.Needs m d → B d) (hhas : ∀ m, B m → t.Has m)
    (hnodup : found.Nodup) (hrange : ∀ m ∈ found, t.Has m) (hB : ∀ m ∈ waiting, B m)
    (hsteps : waiting.length + t.edgesLeft found ≤ steps) :
    ∃ found', t.reach steps found waiting = .ok found' ∧ Finds t waiting found found' := by
  induction steps generalizing found waiting with
  | zero =>
    obtain rfl := List.length_eq_zero_iff.1 (by omega : waiting.length = 0)
    exact ⟨found, rfl, .nil hnodup hrange⟩
  | succ steps ih =>
    cases waiting with
    | nil => exact ⟨found, rfl, .nil hnodup hrange⟩
    | cons m waiting =>
      obtain ⟨hBm, hB⟩ := List.forall_mem_cons.1 hB
      obtain ⟨record, hrecord⟩ := has_iff.1 (hhas m hBm)
      rw [reach, hrecord]
      dsimp only
      rw [List.length_cons] at hsteps
      split
      · rename_i hmem
        have hmem : m ∈ found := by simpa using hmem
        obtain ⟨found', hreach, hfinds⟩ := ih hnodup hrange hB (by omega)
        refine ⟨found', hreach, hfinds.kept, hfinds.nodup, hfinds.inRange, fun r hr hhas => ?_,
          fun d hd => ?_, hfinds.closed⟩
        · rcases List.mem_cons.1 hr with rfl | hr
          · exact hfinds.kept hmem
          · exact hfinds.started r hr hhas
        · rcases hfinds.reached d hd with hd | ⟨r, hr, hreaches⟩
          · exact .inl hd
          · exact .inr ⟨r, List.mem_cons_of_mem _ hr, hreaches⟩
      · rename_i hnot
        have hnot : m ∉ found := by simpa using hnot
        have hneed (d : MaterializationId) (hd : d ∈ record.dependencies) : t.Needs m d :=
          ⟨record, hrecord, hd⟩
        obtain ⟨found', hreach, hfinds⟩ := ih
          (List.nodup_cons.2 ⟨hnot, hnodup⟩) (List.forall_mem_cons.2 ⟨hhas m hBm, hrange⟩)
            (fun d hd => by
            rcases List.mem_append.1 hd with hd | hd
            · exact hneeds m d hBm (hneed d (List.mem_reverse.1 hd))
            · exact hB d hd) (by
            have := edgesLeft_cons hrecord hnot
            rw [List.length_append, List.length_reverse]
            omega)
        have hm : m ∈ found' := hfinds.kept List.mem_cons_self
        refine ⟨found', hreach, fun d hd => hfinds.kept (List.mem_cons_of_mem _ hd), hfinds.nodup,
          hfinds.inRange,
          fun r hr hhas => ?_, fun d hd => ?_, fun d hd => ?_⟩
        · rcases List.mem_cons.1 hr with rfl | hr
          · exact hm
          · exact hfinds.started r (List.mem_append_right _ hr) hhas
        · rcases hfinds.reached d hd with hd | ⟨r, hr, hreaches⟩
          · rcases List.mem_cons.1 hd with rfl | hd
            · exact .inr ⟨d, List.mem_cons_self, .refl⟩
            · exact .inl hd
          · rcases List.mem_append.1 hr with hr | hr
            · exact .inr ⟨m, List.mem_cons_self, .head (hneed r (List.mem_reverse.1 hr)) hreaches⟩
            · exact .inr ⟨r, List.mem_cons_of_mem _ hr, hreaches⟩
        · rcases hfinds.closed d hd with hd | hd
          · rcases List.mem_cons.1 hd with rfl | hd
            · refine .inr fun d' hneeds' hhas' => ?_
              obtain ⟨record', hrecord', hd'⟩ := hneeds'
              rw [hrecord] at hrecord'
              cases hrecord'
              exact hfinds.started d' (List.mem_append_left _ (List.mem_reverse.2 hd')) hhas'
            · exact .inl hd
          · exact .inr hd

theorem reachable_nodup (h : t.reachable e = .ok pending) : pending.Nodup := by
  obtain ⟨found, hreach, hpending⟩ := bind_eq_ok_iff.1 h
  cases hpending
  exact ((List.mergeSort_perm _ _).nodup_iff).2 (reach_nodup List.nodup_nil hreach)

/-- The objects to build are found, if the table describes all that are needed, and with each object
those that it needs. -/
theorem reachable_succeeds (hneeds : ∀ m d, B m → t.Needs m d → B d) (hhas : ∀ m, B m → t.Has m)
    (hroots : ∀ r ∈ e.materializationRoots, B r) :
    ∃ pending, t.reachable e = .ok pending ∧ (∀ m ∈ pending, B m) ∧
      (∀ r ∈ e.materializationRoots, r ∈ pending) ∧ ∀ m ∈ pending, ∀ d, t.Needs m d →
      d ∈ pending := by
  have hroots' (r : MaterializationId) (hr : r ∈ e.materializationRoots.reverse) : B r :=
    hroots r (List.mem_reverse.1 hr)
  obtain ⟨found, hreach, hfinds⟩ := reach_finds (e.materializationRoots.reverse.length +
    (t.materializations.map (·.dependencies.length)).foldl (· + ·) 0) hneeds hhas List.nodup_nil
      nofun hroots'
    (by rw [edgesLeft_nil])
  have hmem {m : MaterializationId} : m ∈ found.mergeSort (fun a b => a.index ≤ b.index) ↔
    m ∈ found := List.mem_mergeSort
  have hB := reach_mem hneeds (by simp) hroots' hreach
  refine ⟨_, bind_eq_ok_iff.2 ⟨found, hreach, rfl⟩, fun m hm => hB m (hmem.1 hm), fun r hr => ?_,
    fun m hm d hd => ?_⟩
  · exact hmem.2 (hfinds.started r (List.mem_reverse.2 hr) (hhas r (hroots r hr)))
  · exact hmem.2 ((hfinds.closed m (hmem.1 hm)).resolve_left (by simp) d hd
      (hhas d (hneeds m d (hB m (hmem.1 hm)) hd)))

/-! ## Resolving -/

theorem buildAll_ok (hs : s.2 = []) (hx : t.buildAll mat.logged c e s = (.ok cells, s')) :
    Constructed t c cells s'.2 ∧ ∃ pending, t.reachable e = .ok pending ∧ ∀ m, Built cells m ↔
    m ∈ pending := by
  have hstart : Constructed t c (Array.replicate t.materializations.size none) s.2 := hs ▸ .start
  rw [buildAll] at hx
  cases hreach : t.reachable e with
  | error cause =>
    rw [hreach] at hx
    cases hx
  | ok pending =>
    rw [hreach] at hx
    obtain ⟨h, hiff⟩ := hstart.buildRounds (reachable_nodup hreach) (fun _ _ => not_built_start)
      (Nat.le_refl _) hx
    exact ⟨h, pending, rfl, fun m => (hiff m).trans (or_iff_right not_built_start)⟩

variable (mat) in
/-- All objects are built if those that are needed can be, and none of them needs itself. -/
theorem buildAll_succeeds (hs : s.2 = []) (hneeds : ∀ m d, B m → t.Needs m d → B d)
    (hroots : ∀ r ∈ e.materializationRoots, B r) (hbuildable : ∀ m, B m → Buildable t c m)
    (hacc : ∀ m, B m → Acc (fun d m => t.Needs m d) m) :
    ∃ cells s', t.buildAll mat.logged c e s = (.ok cells, s') ∧
      (∀ r ∈ e.materializationRoots, Built cells r) ∧ ∀ m, Built cells m → B m := by
  have hhas (m : MaterializationId) (hm : B m) : t.Has m := by
    obtain ⟨record, hrecord, -⟩ := hbuildable m hm
    exact has_iff.2 ⟨record, hrecord⟩
  obtain ⟨pending, hreach, hB, hpending, hclosed⟩ := reachable_succeeds hneeds hhas hroots
  have hstart : Constructed t c (Array.replicate t.materializations.size none) s.2 := hs ▸ .start
  obtain ⟨cells, s', hx⟩ := buildRounds_succeeds mat pending.length hstart (reachable_nodup hreach)
    (fun _ _ => not_built_start) (fun m hm => hbuildable m (hB m hm)) (fun m hm => hacc m (hB m hm))
    fun m hm d hd => .inr (hclosed m hm d hd)
  have hall : t.buildAll mat.logged c e s = (.ok cells, s') := by rw [buildAll, hreach]; exact hx
  obtain ⟨-, pending', hreach', hiff⟩ := buildAll_ok hs hall
  obtain rfl : pending = pending' := Except.ok.inj (hreach.symm.trans hreach')
  exact ⟨cells, s', hall, fun r hr => (hiff r).2 (hpending r hr), fun m hm => hB m ((hiff m).1 hm)⟩

theorem mapM_array_ok {f : α → Except DeoptFailure β} {l : Array α} {r : Array β}
    (h : l.mapM f = .ok r) :
    r.size = l.size ∧ ∀ (i : Nat) a, l[i]? = some a → ∃ b, r[i]? = some b ∧ f a = .ok b := by
  rw [Array.mapM_eq_mapM_toList] at h
  obtain ⟨bs, hbs, hr⟩ := bind_eq_ok_iff.1 h
  cases hr
  have hall := mapM_eq_ok_iff.1 hbs
  refine ⟨by simpa using hall.length_eq.symm, fun i a ha => ?_⟩
  obtain ⟨hi, rfl⟩ := Array.getElem?_eq_some_iff.1 ha
  have hi' : i < bs.length := by
    rw [← hall.length_eq]
    simpa using hi
  exact ⟨bs[i], by simp [hi'], hall.get (by simpa using hi) hi'⟩

/-- What a resolved frame holds. -/
structure Restores (c : Captured) (e : OsrExit) (cells : Array (Option Word)) (F : ResolvedFrame) :
    Prop where
  exit : F.exit = c.exit
  kind : F.kind = e.kind
  origin : F.origin = e.origin
  operands : ∀ v x, e.values.get? v = some x → ∃ w, F.operands.get? v = some w ∧
    c.boxed cells x = .ok w
  arguments : F.operands.arguments.size = e.values.arguments.size
  locals : F.operands.locals.size = e.values.locals.size
  profiled : e.profileValue.mapM c.value = .ok F.profiledValue

theorem resolveFrame_ok {F : ResolvedFrame} (h : resolveFrame c e cells = .ok F) :
    Restores c e cells F := by
  obtain ⟨operands, hoperands, h⟩ := bind_eq_ok_iff.1 h
  obtain ⟨profiled, hprofiled, h⟩ := bind_eq_ok_iff.1 h
  cases h
  obtain ⟨arguments, harguments, h⟩ := bind_eq_ok_iff.1 hoperands
  obtain ⟨locals, hlocals, h⟩ := bind_eq_ok_iff.1 h
  cases h
  obtain ⟨hargs, harg⟩ := mapM_array_ok harguments
  obtain ⟨hlocs, hloc⟩ := mapM_array_ok hlocals
  refine ⟨rfl, rfl, rfl, fun v x hx => ?_, hargs, hlocs, hprofiled⟩
  cases v with
  | arg i => exact harg i x hx
  | loc i => exact hloc i x hx

/-- There is nothing for a variable outside the frame. -/
theorem Restores.outside {F : ResolvedFrame} {v : Operand} (h : Restores c e cells F)
    (hv : e.values.get? v = none) :
    F.operand v = Value.undefined := by
  have hshaped : F.operands.Shaped e.values.arguments.size e.values.locals.size :=
    ⟨h.arguments, h.locals⟩
  rw [ResolvedFrame.operand, Operands.get?_eq_none_of_shaped ⟨rfl, rfl⟩ hshaped hv]
  rfl

theorem mapM_array_succeeds {f : α → Except DeoptFailure β} {l : Array α}
    (h : ∀ (i : Nat) a, l[i]? = some a → ∃ b, f a = .ok b) : ∃ r, l.mapM f = .ok r := by
  obtain ⟨bs, hbs⟩ := exists_forall₂ (R := fun a b => f a = .ok b) (l := l.toList) fun a ha => by
    obtain ⟨i, hi⟩ := List.getElem?_of_mem ha
    exact h i a (by simpa using hi)
  exact ⟨bs.toArray,
    by rw [Array.mapM_eq_mapM_toList]; exact bind_eq_ok_iff.2 ⟨bs, mapM_eq_ok_iff.2 hbs, rfl⟩⟩

/-- A frame is resolved if all its variables and the profiled value can be read. -/
theorem resolveFrame_succeeds {profiled : Option Word}
    (hvalues : ∀ v x, e.values.get? v = some x → ∃ w, c.boxed cells x = .ok w)
    (hprofiled : e.profileValue.mapM c.value = .ok profiled) :
    ∃ F, resolveFrame c e cells = .ok F := by
  obtain ⟨arguments, harguments⟩ := mapM_array_succeeds (l := e.values.arguments) fun i x hx =>
    hvalues (.arg i) x hx
  obtain ⟨locals, hlocals⟩ := mapM_array_succeeds (l := e.values.locals) fun i x hx =>
    hvalues (.loc i) x hx
  have hoperands : resolveOperands c cells e.values = .ok ⟨arguments, locals⟩ :=
    bind_eq_ok_iff.2 ⟨arguments, harguments, bind_eq_ok_iff.2 ⟨locals, hlocals, rfl⟩⟩
  exact ⟨_, bind_eq_ok_iff.2 ⟨_, hoperands, bind_eq_ok_iff.2 ⟨profiled, hprofiled, rfl⟩⟩⟩

theorem checkCaptured_ok_iff :
    t.checkCaptured c e = .ok () ↔ (t.stackmapLength? c.exit).getD 0 ≤ c.stackmap.size ∧
    c.frame.arguments.size = e.values.arguments.size ∧
    c.frame.locals.size = e.values.locals.size := by
  rw [checkCaptured]
  split
  · rename_i h
    refine ⟨fun hok => ?_, fun hle => absurd hle.1 (Nat.not_le_of_lt h)⟩
    cases hok
  · rename_i h
    split
    · rename_i hne
      constructor
      · intro hok
        cases hok
      · intro heq
        rcases hne with hne | hne
        · exact absurd heq.2.1 hne
        · exact absurd heq.2.2 hne
    · rename_i hne
      simp only [ne_eq, not_or, not_not] at hne
      exact ⟨fun _ => ⟨Nat.le_of_not_lt h, hne⟩, fun _ => rfl⟩

theorem resolve_eq_ok_iff {mat : Materializer σ} {s s' : σ} {F : ResolvedFrame}
    (he : t.exit? c.exit = some e) :
    t.resolve mat c s = (.ok F, s') ↔ t.checkCaptured c e = .ok () ∧
      ∃ cells, t.buildAll mat c e s = (.ok cells, s') ∧ resolveFrame c e cells = .ok F := by
  have hcheck : (t.checkCaptured c e).mapError DeoptFailure.error = .ok () ↔
    t.checkCaptured c e = .ok () := by
    cases t.checkCaptured c e with
    | error _ => exact ⟨nofun, nofun⟩
    | ok _ => exact ⟨fun _ => rfl, fun _ => rfl⟩
  rw [resolve, he]
  simp only [resolve_bind_ok, ofExcept_ok, hcheck]
  constructor
  · rintro ⟨-, _, ⟨hok, rfl⟩, cells, s₁, hall, hframe, rfl⟩
    exact ⟨hok, cells, hall, hframe⟩
  · rintro ⟨hok, cells, hall, hframe⟩
    exact ⟨(), s, ⟨hok, rfl⟩, cells, s', hall, hframe, rfl⟩

/-- A resolved frame belongs to an exit of the table. -/
theorem resolve_restores {mat : Materializer σ} {s s' : σ} {F : ResolvedFrame}
    (h : t.resolve mat c s = (.ok F, s')) :
    ∃ e cells, t.exit? c.exit = some e ∧ Restores c e cells F := by
  cases he : t.exit? c.exit with
  | none =>
    rw [resolve, he] at h
    cases h
  | some e =>
    obtain ⟨-, cells, -, hframe⟩ := (resolve_eq_ok_iff he).1 h
    exact ⟨e, cells, rfl, resolveFrame_ok hframe⟩

/-! ## Without the list -/

/-- The second step does what the first one does, and keeps a list besides. -/
def Forgets (x : Resolve σ α) (y : Resolve (σ × List (MaterializedFields × Word)) α) : Prop :=
  ∀ s log, x s = ((y (s, log)).1, (y (s, log)).2.1)

theorem Forgets.of_same {x : Except DeoptFailure α} :
    Forgets (fun s => (x, s) : Resolve σ α) (fun s => (x, s)) := fun _ _ => rfl

theorem Forgets.bind {x : Resolve σ α} {y : Resolve (σ × List (MaterializedFields × Word)) α}
    {f : α → Resolve σ β} {g : α → Resolve (σ × List (MaterializedFields × Word)) β}
    (hx : Forgets x y) (hf : ∀ a, Forgets (f a) (g a)) :
    Forgets (x >>= f) (y >>= g) := by
  intro s log
  have hleft : (x >>= f) s = ExceptT.bindCont f (x s).1 (x s).2 := rfl
  have hright : (y >>= g) (s, log) = ExceptT.bindCont g (y (s, log)).1 (y (s, log)).2 := rfl
  rw [hleft, hright, hx s log]
  cases (y (s, log)).1 with
  | error e => rfl
  | ok a => exact hf a _ _

theorem Forgets.mapM {f : α → Resolve σ β}
    {g : α → Resolve (σ × List (MaterializedFields × Word)) β} {l : List α}
    (hf : ∀ a, Forgets (f a) (g a)) : Forgets (l.mapM f) (l.mapM g) := by
  induction l with
  | nil => exact .of_same
  | cons a l ih =>
    rw [List.mapM_cons, List.mapM_cons]
    exact (hf a).bind fun _ => ih.bind fun _ => .of_same

theorem buildOne_forgets {mat : Materializer σ} :
    Forgets (t.buildOne mat c cells m) (t.buildOne mat.logged c cells m) := by
  rw [buildOne, buildOne]
  cases t.materialization? m with
  | none => exact .of_same
  | some record =>
    exact .bind (.mapM fun p => .bind .of_same fun _ => .of_same) fun _ => .bind (fun _ _ => rfl)
      fun _ => .of_same

theorem buildReady_forgets {mat : Materializer σ} :
    Forgets (t.buildReady mat c pending cells) (t.buildReady mat.logged c pending cells) := by
  induction pending generalizing cells with
  | nil => exact .of_same
  | cons m pending ih =>
    rw [buildReady, buildReady]
    split
    · exact buildOne_forgets.bind fun _ => ih
    · exact ih.bind fun _ => .of_same

theorem buildRounds_forgets {mat : Materializer σ} {rounds : Nat} :
    Forgets (t.buildRounds mat c rounds pending cells) (t.buildRounds mat.logged c rounds pending
      cells) := by
  induction rounds generalizing pending cells with
  | zero => cases pending <;> exact .of_same
  | succ rounds ih =>
    cases pending with
    | nil => exact .of_same
    | cons m pending =>
      rw [buildRounds, buildRounds]
      · refine buildReady_forgets.bind fun r => ?_
        dsimp only
        split
        · exact .bind .of_same fun _ => ih
        · exact ih
      all_goals simp

theorem resolve_forgets {mat : Materializer σ} :
    Forgets (t.resolve mat c) (t.resolve mat.logged c) := by
  rw [resolve, resolve]
  cases t.exit? c.exit with
  | none => exact .of_same
  | some e =>
    refine .bind .of_same fun _ => .bind ?_ fun _ => .of_same
    rw [buildAll, buildAll]
    cases t.reachable e with
    | ok pending => exact buildRounds_forgets
    | error cause => exact .of_same

/-- The objects that are built for an exit, with their addresses. -/
def objects (t : ExitTable) (mat : Materializer σ) (c : Captured) (s : σ) :
    List (MaterializedFields × Word) :=
  (t.resolve mat.logged c (s, [])).2.2

/-- An exit is resolved in the same way whether a list is kept or not. -/
theorem resolve_logged {mat : Materializer σ} {s s' : σ} {r : Except DeoptFailure ResolvedFrame}
    {log : List (MaterializedFields × Word)} :
    t.resolve mat.logged c (s, []) = (r, (s', log)) ↔ t.resolve mat c s = (r, s') ∧
      t.objects mat c s = log := by
  rw [resolve_forgets s [], objects]
  constructor
  · intro h
    rw [h]
    exact ⟨rfl, rfl⟩
  · rintro ⟨h, rfl⟩
    cases h
    rfl

end ExitTable

end SpecJit
