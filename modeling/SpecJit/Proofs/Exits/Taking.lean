import Mathlib
import SpecJit.Deopt
import SpecJit.Proofs.Exits.Building
import SpecJit.Proofs.Lir.Integers

/-!
# Taking an exit

Taking an exit is refused for what is seen up front, before anything is built
(`resolve_error_cases`): the table has no such exit, too few values were captured, or the frame has
another shape. `resolve_refusal` says when the captured values are too few, which number is asked
for, and that nothing was built and nothing else is refused once the checks have passed.

The objects of a table may hold each other in any way. If what was captured suffices for an exit
(`Sufficient`), an object that the exit reaches is built, once and after all that it needs, unless
it leads to an object that needs itself. The rounds stop when only such objects wait
(`buildRounds_done`). Hence the exit is taken exactly if it reaches no object that needs itself
(`resolve_builds`).

An exit may redo an addition or a subtraction on two captured words of an integer format. Int52
values are captured shifted left by 12 bits or as they are. Sums and differences of shifted words
wrap at 64 bits, and so do the integers that they stand for at 52 bits; of integers as they are, the
low 52 bits are taken in the end. Both formats give the exact result wrapped to 52 bits
(`recovered_integers`), and int32 recoveries read the low halves of the words only.
-/

namespace SpecJit.ExitTable

variable {σ : Type} {t : ExitTable} {mat : Materializer σ} {c : Captured} {s : σ} {e : OsrExit}
  {err : DeoptError}

/-- The number of captured values that an exit needs is one more than the largest index that it
reads. -/
theorem stackmapLength?_reads (he : t.exit? c.exit = some e) :
    ∃ n, t.stackmapLength? c.exit = some n ∧ (∀ i, t.Reads e i → i < n) ∧
    (n ≠ 0 → ∃ i, t.Reads e i ∧ n = i + 1) := by
  refine ⟨_, by rw [stackmapLength?, he, Option.map_some], fun i hi => ?_, fun hne => ?_⟩
  · exact (foldl_max_mem _ 0).1 _
      (List.mem_cons_of_mem _ (List.mem_map_of_mem (mem_capturedIndices_iff.2 hi)))
  · rcases List.mem_cons.1 (foldl_max_mem ((t.capturedIndices e).map (· + 1)) 0).2 with hz | hmem
    · exact absurd hz hne
    · obtain ⟨i, hi, heq⟩ := List.mem_map.1 hmem
      exact ⟨i, mem_capturedIndices_iff.1 hi, heq.symm⟩

/-- What the checks up front find: too few values were captured exactly if one that is read is
missing. -/
theorem checkCaptured_tooShort_iff {id : ExitId} {needed captured : Nat}
    (he : t.exit? c.exit = some e) :
    t.checkCaptured c e = .error (.stackmapTooShort id needed captured) ↔
      id = c.exit ∧ captured = c.stackmap.size ∧ captured < needed ∧
      IsGreatest {n | ∃ i, t.Reads e i ∧ n = i + 1} needed := by
  obtain ⟨n, hn, hreads, hlast⟩ := stackmapLength?_reads he
  rw [checkCaptured, hn, Option.getD_some]
  constructor
  · intro h
    split at h
    · rename_i hless
      cases h
      refine ⟨rfl, rfl, hless, hlast (by omega), ?_⟩
      rintro _ ⟨i, hi, rfl⟩
      exact hreads i hi
    · split at h <;> cases h
  · rintro ⟨rfl, rfl, hless, ⟨i, hi, rfl⟩, hbound⟩
    have hn' : n = i + 1 := by
      have hle := hreads i hi
      obtain ⟨j, hj, hj'⟩ := hlast (by omega)
      have := hbound ⟨j, hj, rfl⟩
      omega
    rw [hn', if_pos hless]

theorem resolve_of_check_error (he : t.exit? c.exit = some e)
    (hcheck : t.checkCaptured c e = .error err) :
    t.resolve mat c s = (.error (.error err), s) := by
  rw [resolve, he]
  dsimp only
  rw [hcheck]
  rfl

/-- A refusal comes from the checks up front, and leaves the materializer alone. -/
theorem resolve_error_cases (h : (t.resolve mat c s).1 = .error (.error err)) :
    t.resolve mat c s = (.error (.error err), s) ∧
      (t.exit? c.exit = none ∧ err = .unknownExit c.exit ∨
        ∃ e, t.exit? c.exit = some e ∧ t.checkCaptured c e = .error err) := by
  cases he : t.exit? c.exit with
  | none =>
    rw [resolve, he] at h ⊢
    cases h
    exact ⟨rfl, .inl ⟨rfl, rfl⟩⟩
  | some e =>
    cases hcheck : t.checkCaptured c e with
    | ok u => exact absurd h (resolve_accepted he hcheck s err)
    | error err' =>
      rw [resolve_of_check_error he hcheck] at h ⊢
      cases h
      exact ⟨rfl, .inr ⟨e, rfl, hcheck⟩⟩

/-- A refusal for too few captured values. -/
theorem resolve_tooShort_iff {id : ExitId} {needed captured : Nat} :
    (t.resolve mat c s).1 = .error (.error (.stackmapTooShort id needed captured)) ↔
      ∃ e, t.exit? c.exit = some e ∧ t.checkCaptured c e = .error
        (.stackmapTooShort id needed captured) := by
  constructor
  · intro h
    rcases (resolve_error_cases h).2 with ⟨-, herr⟩ | hcheck
    · cases herr
    · exact hcheck
  · rintro ⟨e, he, hcheck⟩
    rw [resolve_of_check_error he hcheck]

/-- Whatever the table, the captured values, the frame and the materializer are: if taking an exit
is refused, nothing was built. It is refused for too few captured values exactly if the table has
the exit and one of the values that the variables, the profile or the fields of the objects read is
missing; the number asked for is one more than the last of these. Once the checks up front have
passed, nothing is refused. -/
theorem resolve_refusal (t : ExitTable) (mat : Materializer σ) (c : Captured) (s : σ) :
    (∀ err, (t.resolve mat c s).1 = .error (.error err) → (t.resolve mat c s).2 = s ∧
      t.objects mat c s = []) ∧
    ((∃ id needed captured, (t.resolve mat c s).1 = .error
      (.error (.stackmapTooShort id needed captured))) ↔
      ∃ e, t.exit? c.exit = some e ∧ ∃ i, t.Reads e i ∧ c.stackmap.size < i + 1) ∧
    (∀ id needed captured, (t.resolve mat c s).1 = .error
      (.error (.stackmapTooShort id needed captured)) →
      id = c.exit ∧ captured = c.stackmap.size ∧
        ∃ e, t.exit? c.exit = some e ∧ IsGreatest {n | ∃ i, t.Reads e i ∧ n = i + 1} needed) ∧
    (∀ e, t.exit? c.exit = some e → t.checkCaptured c e = .ok () → ∀ err,
      (t.resolve mat c s).1 ≠ .error (.error err)) := by
  refine ⟨fun err h => ?_, ⟨?_, ?_⟩, fun id needed captured h => ?_, fun e he hcheck err =>
    resolve_accepted he hcheck s err⟩
  · have hsame := (resolve_error_cases h).1
    have hlog : (t.resolve mat.logged c (s, [])).1 = .error (.error err) := by
      rw [← h, resolve_forgets s []]
    exact ⟨by rw [hsame], by rw [objects, (resolve_error_cases hlog).1]⟩
  · rintro ⟨id, needed, captured, h⟩
    obtain ⟨e, he, hcheck⟩ := resolve_tooShort_iff.1 h
    obtain ⟨-, hcaptured, hless, ⟨i, hi, hneeded⟩, -⟩ := (checkCaptured_tooShort_iff he).1 hcheck
    exact ⟨e, he, i, hi, by omega⟩
  · rintro ⟨e, he, i, hi, hless⟩
    obtain ⟨n, -, hreads, hlast⟩ := stackmapLength?_reads he
    have hle := hreads i hi
    refine ⟨c.exit, n, c.stackmap.size,
      resolve_tooShort_iff.2 ⟨e, he, (checkCaptured_tooShort_iff he).2 ⟨rfl, rfl, ?_, ?_, ?_⟩⟩⟩
    · omega
    · exact hlast (by omega)
    · rintro _ ⟨j, hj, rfl⟩
      exact hreads j hj
  · obtain ⟨e, he, hcheck⟩ := resolve_tooShort_iff.1 h
    obtain ⟨hid, hcaptured, -, hgreatest⟩ := (checkCaptured_tooShort_iff he).1 hcheck
    exact ⟨hid, hcaptured, e, he, hgreatest⟩

end SpecJit.ExitTable

namespace SpecJit

open Relation

/-- What the value is restored from is there: captured values, slots of the frame and records of
objects. Arithmetic is on integers. -/
def ExitValue.Restorable (t : ExitTable) (c : Captured) : ExitValue → Prop
  | .dead | .constant _ => True
  | .inStack slot _ => (c.frame.get? slot).isSome
  | .argument i _ => i < c.stackmap.size
  | .recovery _ i j format =>
    i < c.stackmap.size ∧ j < c.stackmap.size ∧ (format = .int32 ∨ format = .int52 ∨
      format = .strictInt52)
  | .materialize m => t.Has m

namespace ExitTable

variable {σ : Type} {t : ExitTable} {mat : Materializer σ} {c : Captured} {e : OsrExit}
  {m d : MaterializationId} {cells : Array (Option Word)} {pending : List MaterializationId}
  {s : σ × List (MaterializedFields × Word)}

/-- An object that needs itself, through others or at once. -/
def InCycle (t : ExitTable) (m : MaterializationId) : Prop := TransGen t.Needs m m

/-- What was captured suffices for an exit: the frame has its shape, and what its variables, its
profile and the objects that it reaches are restored from is there. -/
structure Sufficient (t : ExitTable) (c : Captured) (e : OsrExit) : Prop where
  shape : c.frame.Shaped e.values.arguments.size e.values.locals.size
  profile : ∀ i, e.profileValue = some i → i < c.stackmap.size
  values : ∀ v x, e.values.get? v = some x → x.Restorable t c
  fields : ∀ m record, t.Reached e m → t.materialization? m = some record → ∀ p ∈ record.properties,
    p.2.Restorable t c

/-! ## Cycles -/

theorem not_inCycle_of_acc (h : Acc (fun d m => t.Needs m d) m) : ¬ t.InCycle m := by
  intro hcycle
  have hacc : Acc (TransGen fun d m => t.Needs m d) m := h.transGen
  have hself : TransGen (fun d m => t.Needs m d) m m := transGen_swap.2 hcycle
  clear h hcycle
  induction hacc with
  | intro m _ ih => exact ih m hself hself

theorem acc_of_reaches (h : Acc (fun d m => t.Needs m d) m) (hd : t.Reaches m d) :
    Acc (fun d m => t.Needs m d) d := by
  induction hd with
  | refl => exact h
  | tail _ hneeds ih => exact ih.inv hneeds

/-- Among finitely many objects, one is grounded exactly if it does not lead to an object that needs
itself. -/
theorem acc_iff (hhas : ∀ d, t.Reaches m d → t.Has d) :
    Acc (fun d m => t.Needs m d) m ↔ ∀ d, t.Reaches m d → ¬ t.InCycle d := by
  refine ⟨fun h d hd => not_inCycle_of_acc (acc_of_reaches h hd), fun h => ?_⟩
  let below : {d // t.Reaches m d} → {d // t.Reaches m d} → Prop :=
    fun a b => TransGen t.Needs b.1 a.1
  have : Finite {d // t.Reaches m d} := by
    refine Finite.of_injective (fun d => (⟨d.1.index, hhas d.1 d.2⟩ : Fin t.materializations.size))
      fun a b hab => ?_
    exact Subtype.ext (MaterializationId.eq_of_index (Fin.mk.inj hab))
  have : IsTrans _ below := ⟨fun _ _ _ hab hbc => hbc.trans hab⟩
  have : Std.Irrefl below := ⟨fun a ha => h a.1 a.2 ha⟩
  have hwf : WellFounded below := Finite.wellFounded_of_trans_of_irrefl below
  have hall : ∀ a : {d // t.Reaches m d}, Acc (fun d m => t.Needs m d) a.1 := fun a => by
    induction a using hwf.induction with
    | h a ih => exact ⟨_, fun d hd => ih ⟨d, a.2.tail hd⟩ (.single hd)⟩
  exact hall ⟨m, .refl⟩

/-! ## Rounds -/

variable (mat) in
/-- The rounds over objects that can be built go on until only objects that are not grounded wait.
-/
theorem buildRounds_done (rounds : Nat) (h : Constructed t c cells s.2) (hnodup : pending.Nodup)
    (hnew : ∀ m ∈ pending, ¬ Built cells m) (hbuildable : ∀ m ∈ pending, Buildable t c m)
    (hclosed : ∀ m ∈ pending, ∀ d, t.Needs m d → Built cells d ∨ d ∈ pending)
    (hrounds : pending.length ≤ rounds) :
    ∃ r s' cells', t.buildRounds mat.logged c rounds pending cells s = (r, s') ∧
      Constructed t c cells' s'.2 ∧
      (∀ m, Built cells' m ↔ Built cells m ∨ m ∈ pending ∧ Acc (fun d m => t.Needs m d) m) ∧
      (r = .ok cells' ∧ (∀ m ∈ pending, Acc (fun d m => t.Needs m d) m) ∨
        ∃ ids, r = .error (.crash c.exit (.cycle ids)) ∧ ∃ m ∈ pending,
        ¬ Acc (fun d m => t.Needs m d) m) := by
  induction rounds generalizing pending cells s with
  | zero =>
    obtain rfl := List.length_eq_zero_iff.1 (Nat.le_zero.1 hrounds)
    exact ⟨_, s, cells, rfl, h, by simp, .inl ⟨rfl, by simp⟩⟩
  | succ rounds ih =>
    cases pending with
    | nil => exact ⟨_, s, cells, rfl, h, by simp, .inl ⟨rfl, by simp⟩⟩
    | cons m pending =>
      obtain ⟨⟨cells₁, waiting⟩, s₁, hround⟩ := buildReady_succeeds cells mat s hbuildable
      have hr := h.buildReady hnodup hnew hround
      have hbuilt (d : MaterializationId) (hd : Built cells₁ d) :
          Built cells d ∨ d ∈ m :: pending ∧ Acc (fun d m => t.Needs m d) d :=
        (hr.only d hd).imp_right fun hmem => ⟨hmem, hr.constructed.grounded hd⟩
      rw [ExitTable.buildRounds]
      · by_cases hstuck : waiting.length = (m :: pending).length
        · -- nothing was ready, so nothing that waits is grounded
          have hall : waiting = m :: pending := hr.sublist.eq_of_length hstuck
          have hnot (d : MaterializationId) (hd : d ∈ m :: pending) : ¬ Acc (fun d m => t.Needs m d)
            d := fun hacc => by
            obtain ⟨d', hd', hfirst⟩ := exists_first hd hacc
            obtain ⟨record, hrecord, -⟩ := hbuildable d' hd'
            have hready : t.isReady cells d' = true := isReady_iff.2
              ⟨has_iff.2 ⟨record, hrecord⟩, fun x hx => (hclosed d' hd' x hx).resolve_right
                (hfirst x hx)⟩
            exact hr.unbuilt d' (hall ▸ hd') (hr.ready d' hd' hready)
          refine ⟨.error (.crash c.exit (.cycle waiting)), s₁, cells₁, ?_, hr.constructed,
            fun d => ⟨hbuilt d, ?_⟩,
            .inr ⟨waiting, rfl, m, List.mem_cons_self, hnot m List.mem_cons_self⟩⟩
          · rw [resolve_bind_of_ok hround]
            dsimp only
            rw [if_pos hstuck]
            rfl
          · rintro (hd | ⟨hd, hacc⟩)
            · exact hd.mono hr.le
            · exact absurd hacc (hnot d hd)
        · have hless := hr.sublist.length_le
          obtain ⟨r, s', cells', hrest, hconstructed, hiff, hend⟩ :=
            ih hr.constructed (hr.sublist.nodup hnodup) hr.unbuilt
            (fun d hd => hbuildable d (hr.sublist.subset hd)) (fun d hd x hx => by
              rcases hclosed d (hr.sublist.subset hd) x hx with hx' | hx'
              · exact .inl (hx'.mono hr.le)
              · exact (hr.done x hx').symm) (by omega)
          refine ⟨r, s', cells', ?_, hconstructed, fun d => (hiff d).trans ⟨?_, ?_⟩, ?_⟩
          · rw [resolve_bind_of_ok hround]
            dsimp only
            rw [if_neg hstuck]
            exact hrest
          · rintro (hd | ⟨hd, hacc⟩)
            · exact hbuilt d hd
            · exact .inr ⟨hr.sublist.subset hd, hacc⟩
          · rintro (hd | ⟨hd, hacc⟩)
            · exact .inl (hd.mono hr.le)
            · exact (hr.done d hd).symm.imp_right fun hw => ⟨hw, hacc⟩
          · rcases hend with ⟨hr', hacc⟩ | ⟨ids, hr', d, hd, hnot⟩
            · refine .inl ⟨hr', fun d hd => ?_⟩
              rcases hr.done d hd with hw | hd'
              · exact hacc d hw
              · exact hr.constructed.grounded hd'
            · exact .inr ⟨ids, hr', d, hr.sublist.subset hd, hnot⟩
      · simp

/-! ## What suffices -/

/-- What is restored from things that are there can be read. -/
theorem readable_of_restorable {x : ExitValue} (h : x.Restorable t c) : Readable c x := by
  have hvalue {i : Nat} (hi : i < c.stackmap.size) : c.value i = .ok c.stackmap[i] :=
    value_ok_iff.2 (Array.getElem?_eq_getElem hi)
  intro cells hbuilt
  cases x with
  | dead | constant => exact ⟨_, rfl⟩
  | inStack slot format =>
    obtain ⟨raw, hraw⟩ := Option.isSome_iff_exists.1 h
    exact ⟨_, by rw [Captured.boxed, hraw]⟩
  | argument i format => exact ⟨_, bind_eq_ok_iff.2 ⟨_, hvalue h, rfl⟩⟩
  | recovery op i j format =>
    obtain ⟨hi, hj, hformat⟩ := h
    have hraw : ∃ raw, op.recover? c.stackmap[i] c.stackmap[j] format = some raw := by
      rcases hformat with rfl | rfl | rfl <;> exact ⟨_, rfl⟩
    obtain ⟨raw, hraw⟩ := hraw
    refine ⟨format.rebox raw, bind_eq_ok_iff.2 ⟨_, hvalue hi, bind_eq_ok_iff.2 ⟨_, hvalue hj, ?_⟩⟩⟩
    rw [hraw]
    rfl
  | materialize m =>
    obtain ⟨w, hw⟩ := hbuilt m rfl
    exact ⟨w, boxed_materialize.2 hw⟩

/-- Every object that the exit reaches has a record. -/
theorem Sufficient.has (h : t.Sufficient c e) (hm : t.Reached e m) : t.Has m := by
  obtain ⟨r, hr, hreach⟩ := hm
  rcases hreach.cases_tail with rfl | ⟨a, hra, record, hrecord, hd⟩
  · obtain ⟨⟨v, x⟩, hx, hobject⟩ := List.mem_filterMap.1 hr
    have hrestorable := h.values v x (Operands.mem_toList.1 hx)
    cases x <;> cases hobject
    exact hrestorable
  · obtain ⟨⟨location, x⟩, hp, hobject⟩ := List.mem_filterMap.1 hd
    have hrestorable := h.fields a record ⟨r, hr, hra⟩ hrecord _ hp
    cases x <;> cases hobject
    exact hrestorable

theorem Sufficient.buildable (h : t.Sufficient c e) (hm : t.Reached e m) : Buildable t c m := by
  obtain ⟨record, hrecord⟩ := has_iff.1 (h.has hm)
  exact ⟨record, hrecord, fun p hp => readable_of_restorable (h.fields m record hm hrecord p hp)⟩

theorem Sufficient.acc_iff (h : t.Sufficient c e) (hm : t.Reached e m) :
    Acc (fun d m => t.Needs m d) m ↔ ∀ d, t.Reaches m d → ¬ t.InCycle d := by
  obtain ⟨r, hr, hreach⟩ := hm
  exact ExitTable.acc_iff fun d hd => h.has ⟨r, hr, hreach.trans hd⟩

/-- A value that is restored reads captured values that are there. -/
theorem lt_of_restorable {x : ExitValue} {i : Nat} (h : x.Restorable t c)
    (hi : i ∈ x.argumentIndices) :
    i < c.stackmap.size := by
  cases x with
  | argument j format =>
    obtain rfl := List.mem_singleton.1 hi
    exact h
  | recovery op j k format =>
    rcases List.mem_pair.1 hi with rfl | rfl
    · exact h.1
    · exact h.2.1
  | _ => cases hi

theorem Sufficient.checkCaptured_ok (h : t.Sufficient c e) (he : t.exit? c.exit = some e) :
    t.checkCaptured c e = .ok () := by
  refine checkCaptured_ok_iff.2 ⟨?_, h.shape⟩
  obtain ⟨n, hn, -, hlast⟩ := stackmapLength?_reads he
  rw [hn, Option.getD_some]
  rcases Nat.eq_zero_or_pos n with rfl | hpos
  · exact Nat.zero_le _
  · obtain ⟨i, hi, rfl⟩ := hlast (by omega)
    rcases hi with ⟨v, x, hx, hi⟩ | hi | ⟨m, record, hm, hrecord, p, hp, hi⟩
    · exact lt_of_restorable (h.values v x hx) hi
    · exact h.profile i hi
    · exact lt_of_restorable (h.fields m record hm hrecord p hp) hi

/-! ## Resolving -/

variable (mat) in
/-- All objects that the exit reaches are built, or building stops at a cycle. -/
theorem Sufficient.buildAll_done (h : t.Sufficient c e) (hs : s.2 = []) :
    ∃ r s' cells, t.buildAll mat.logged c e s = (r, s') ∧ Constructed t c cells s'.2 ∧
      (∀ m, Built cells m ↔ t.Reached e m ∧ Acc (fun d m => t.Needs m d) m) ∧
      (r = .ok cells ∧ (∀ m, t.Reached e m → Acc (fun d m => t.Needs m d) m) ∨
        ∃ ids, r = .error (.crash c.exit (.cycle ids)) ∧ ∃ m, t.Reached e m ∧
        ¬ Acc (fun d m => t.Needs m d) m) := by
  obtain ⟨pending, hreachable, hB, hroots, hclosed⟩ := reachable_succeeds (t := t) (e := e) (B :=
    t.Reached e)
    (fun _ _ hm hneeds => hm.needs hneeds) (fun _ hm => h.has hm) fun r hr => ⟨r, hr, .refl⟩
  have hmem (m : MaterializationId) : m ∈ pending ↔ t.Reached e m := by
    refine ⟨hB m, ?_⟩
    rintro ⟨r, hr, hreach⟩
    induction hreach with
    | refl => exact hroots r hr
    | tail _ hneeds ih => exact hclosed _ ih _ hneeds
  have hstart : Constructed t c (Array.replicate t.materializations.size none) s.2 := hs ▸ .start
  obtain ⟨r, s', cells, hrounds, hconstructed, hiff, hend⟩ :=
    buildRounds_done mat pending.length hstart
    (reachable_nodup hreachable) (fun _ _ => not_built_start) (fun m hm => h.buildable (hB m hm))
    (fun m hm d hneeds => .inr (hclosed m hm d hneeds)) (Nat.le_refl _)
  refine ⟨r, s', cells, by rw [buildAll, hreachable]; exact hrounds, hconstructed, fun m => ?_, ?_⟩
  · rw [hiff, or_iff_right not_built_start, hmem]
  · simpa only [hmem] using hend

variable (mat) in
/-- What resolving an exit does, whether it comes to an end or stops at a cycle. -/
theorem Sufficient.resolve_done (h : t.Sufficient c e) (he : t.exit? c.exit = some e)
    (hs : s.2 = []) :
    ∃ r s' cells, t.resolve mat.logged c s = (r, s') ∧ Constructed t c cells s'.2 ∧
      (∀ m, Built cells m ↔ t.Reached e m ∧ Acc (fun d m => t.Needs m d) m) ∧
      ((∃ F, r = .ok F ∧ resolveFrame c e cells = .ok F) ∧
        (∀ m, t.Reached e m → Acc (fun d m => t.Needs m d) m) ∨
        ∃ ids, r = .error (.crash c.exit (.cycle ids)) ∧ ∃ m, t.Reached e m ∧
        ¬ Acc (fun d m => t.Needs m d) m) := by
  obtain ⟨r, s', cells, hall, hconstructed, hiff, hend⟩ := h.buildAll_done mat hs
  have hcheck : (ofExcept ((t.checkCaptured c e).mapError .error) : Resolve _ Unit) s = (.ok (),
    s) := by
    rw [h.checkCaptured_ok he]
    rfl
  have hresolve : t.resolve mat.logged c s =
      (t.buildAll mat.logged c e >>= fun cells => ofExcept (resolveFrame c e cells)) s := by
    rw [resolve, he]
    exact resolve_bind_of_ok hcheck
  rcases hend with ⟨rfl, hacc⟩ | ⟨ids, rfl, hcycle⟩
  · -- everything is built, so the variables can be read
    have hread (x : ExitValue) (hx : x.Restorable t c) (hobject : ∀ d, x.materialization? = some d →
      t.Reached e d) :
        ∃ w, c.boxed cells x = .ok w :=
      readable_of_restorable hx cells fun d hd => (hiff d).2 ⟨hobject d hd, hacc d (hobject d hd)⟩
    have hprofiled : ∃ profiled, e.profileValue.mapM c.value = .ok profiled := by
      cases hi : e.profileValue with
      | none => exact ⟨none, rfl⟩
      | some i =>
        have hvalue := value_ok_iff.2 (Array.getElem?_eq_getElem (h.profile i hi))
        exact ⟨some _, bind_eq_ok_iff.2 ⟨_, hvalue, rfl⟩⟩
    obtain ⟨profiled, hprofiled⟩ := hprofiled
    obtain ⟨F, hF⟩ := resolveFrame_succeeds (fun v x hx => hread x (h.values v x hx) fun d hd =>
      ⟨d, List.mem_filterMap.2 ⟨(v, x), Operands.mem_toList.2 hx, hd⟩, .refl⟩) hprofiled
    refine ⟨.ok F, s', cells, ?_, hconstructed, hiff, .inl ⟨⟨F, rfl, hF⟩, hacc⟩⟩
    rw [hresolve, resolve_bind_of_ok hall, hF]
    rfl
  · refine ⟨_, s', cells, ?_, hconstructed, hiff, .inr ⟨ids, rfl, hcycle⟩⟩
    rw [hresolve, resolve_bind_of_error hall]

/-- The objects that were built are those of the list. -/
theorem Constructed.mem_iff {log : List (MaterializedFields × Word)} (h : Constructed t c cells log)
    :
    (∃ p ∈ log, p.1.id = m) ↔ Built cells m := by
  constructor
  · rintro ⟨p, hp, rfl⟩
    exact ⟨p.2, (h.described hp).1⟩
  · rintro ⟨w, hw⟩
    obtain ⟨d, hd, hmem⟩ := h.logged hw
    exact ⟨(d, w), hmem, hd⟩

/-- Objects that come one after the other are different. -/
theorem nodup_of_comesNext {log : List (MaterializedFields × Word)}
    (h : ∀ before d w after, log = before ++ (d, w) :: after → t.ComesNext c before d) :
    (log.map fun p => p.1.id).Nodup := by
  induction log using List.reverseRecOn with
  | nil => exact List.nodup_nil
  | append_singleton log p ih =>
    have hnew : ∀ q ∈ log, q.1.id ≠ p.1.id := (h log p.1 p.2 [] rfl).new
    have hearlier : (log.map fun q => q.1.id).Nodup := ih fun before d w after hlog =>
      h before d w (after ++ [p]) (by rw [hlog, List.append_assoc, List.cons_append])
    rw [List.map_append, List.map_singleton]
    refine hearlier.append (List.nodup_singleton _) ?_
    rw [List.disjoint_singleton, List.mem_map]
    rintro ⟨q, hq, hid⟩
    exact hnew q hq hid

/-- If what was captured suffices for an exit, then each object that it reaches is built once, after
all that it needs and from fields that were restored by then, and no other one is. The ones left out
are those that lead to an object that needs itself. There is such an object exactly if taking the
exit crashes; otherwise every variable gets the word that its value stands for. -/
theorem resolve_builds (he : t.exit? c.exit = some e) (h : t.Sufficient c e) (mat : Materializer σ)
    (s : σ) :
    (∀ before d w after, t.objects mat c s = before ++ (d, w) :: after → t.ComesNext c before d) ∧
    ((t.objects mat c s).map fun p => p.1.id).Nodup ∧
    (∀ m, (∃ p ∈ t.objects mat c s, p.1.id = m) ↔ t.Reached e m ∧ ∀ d, t.Reaches m d →
      ¬ t.InCycle d) ∧
    ((∃ id cause, (t.resolve mat c s).1 = .error (.crash id cause)) ↔ ∃ m, t.Reached e m ∧
      t.InCycle m) ∧
    ((∀ m, t.Reached e m → ¬ t.InCycle m) → (∀ m, (∃ p ∈ t.objects mat c s, p.1.id = m) ↔
      t.Reached e m) ∧
      ∃ F, (t.resolve mat c s).1 = .ok F ∧ F.exit = c.exit ∧ F.kind = e.kind ∧ F.origin = e.origin ∧
        ∀ v x, e.values.get? v = some x → ∃ w, F.operands.get? v = some w ∧
        x.Restores c (t.objects mat c s) w) := by
  obtain ⟨r, s', cells, hresolve, hconstructed, hiff, hend⟩ :=
    h.resolve_done mat he (s := (s, [])) rfl
  have hresult : (t.resolve mat c s).1 = r := by rw [resolve_forgets s [], hresolve]
  have hobjects : t.objects mat c s = s'.2 := by rw [objects, hresolve]
  have hmem (m : MaterializationId) : (∃ p ∈ s'.2, p.1.id = m) ↔ t.Reached e m ∧ ∀ d,
    t.Reaches m d → ¬ t.InCycle d := by
    rw [hconstructed.mem_iff, hiff]
    exact and_congr_right fun hm => h.acc_iff hm
  have hcycle (m : MaterializationId) (hm : t.Reached e m) (hnot : ¬ Acc (fun d m => t.Needs m d) m)
    :
      ∃ m, t.Reached e m ∧ t.InCycle m := by
    rw [h.acc_iff hm] at hnot
    push Not at hnot
    obtain ⟨d, hd, hself⟩ := hnot
    obtain ⟨r, hr, hreach⟩ := hm
    exact ⟨d, ⟨r, hr, hreach.trans hd⟩, hself⟩
  rw [hresult, hobjects]
  refine ⟨fun _ _ _ _ => hconstructed.ordered, nodup_of_comesNext fun _ _ _ _ =>
    hconstructed.ordered, hmem, ?_, fun hnone => ?_⟩
  · rcases hend with ⟨⟨F, rfl, -⟩, hacc⟩ | ⟨ids, rfl, m, hm, hnot⟩
    · constructor
      · rintro ⟨_, _, herror⟩
        cases herror
      · rintro ⟨m, hm, hself⟩
        exact absurd hself (not_inCycle_of_acc (hacc m hm))
    · exact ⟨fun _ => hcycle m hm hnot, fun _ => ⟨_, _, rfl⟩⟩
  · refine ⟨fun m => (hmem m).trans (and_iff_left_of_imp fun hm d hd => ?_), ?_⟩
    · obtain ⟨r, hr, hreach⟩ := hm
      exact hnone d ⟨r, hr, hreach.trans hd⟩
    rcases hend with ⟨⟨F, rfl, hF⟩, -⟩ | ⟨ids, -, m, hm, hnot⟩
    · have hrestores := resolveFrame_ok hF
      refine ⟨F, rfl, hrestores.exit, hrestores.kind, hrestores.origin, fun v x hx => ?_⟩
      obtain ⟨w, hw, hboxed⟩ := hrestores.operands v x hx
      exact ⟨w, hw, hconstructed.restores hboxed⟩
    · obtain ⟨m, hm, hself⟩ := hcycle m hm hnot
      exact absurd hself (hnone m hm)

namespace NestedObjects

def exit : OsrExit :=
  { kind := .badType, origin := {}, profileValue := some 0,
    values := .replicate 0 1 (.materialize ⟨1⟩) }

/-- A function object, whose number is 1, closes over an activation, whose number is 0. -/
def table : ExitTable where
  exits := #[exit]
  materializations := #[
    { kind := .createActivation, origin := {},
      properties := [(.closureVar 0, .argument 0 .int32)] },
    { kind := .newFunction, origin := {}, properties := [(.functionActivation, .materialize ⟨0⟩)] }]

def captured : Captured := ⟨⟨0⟩, #[7], .replicate 0 1 Value.undefined⟩

/-- Objects get addresses that are multiples of 16. -/
def allocator : Materializer Nat := ⟨fun _ n => (UInt64.ofNat (16 * n), n + 1)⟩

theorem records (m : MaterializationId) (record : Materialization)
    (h : table.materialization? m = some record) :
    m = ⟨0⟩ ∧ record.properties = [(.closureVar 0, .argument 0 .int32)] ∨
      m = ⟨1⟩ ∧ record.properties = [(.functionActivation, .materialize ⟨0⟩)] := by
  rcases m with ⟨_ | _ | i⟩
  · exact .inl ⟨rfl, by cases h; rfl⟩
  · exact .inr ⟨rfl, by cases h; rfl⟩
  · cases h

theorem needs_lt (h : table.Needs m d) : d.index < m.index := by
  obtain ⟨record, hrecord, hd⟩ := h
  rw [Materialization.dependencies] at hd
  rcases records m record hrecord with ⟨-, hproperties⟩ | ⟨rfl, hproperties⟩
  · rw [hproperties] at hd
    cases hd
  · rw [hproperties] at hd
    obtain rfl := List.mem_singleton.1 hd
    exact Nat.zero_lt_one

theorem not_inCycle (m : MaterializationId) : ¬ table.InCycle m := by
  have hlt {d : MaterializationId} (h : TransGen table.Needs m d) : d.index < m.index := by
    induction h with
    | single h => exact needs_lt h
    | tail _ h ih => exact (needs_lt h).trans ih
  exact fun h => Nat.lt_irrefl _ (hlt h)

theorem sufficient : table.Sufficient captured exit where
  shape := ⟨rfl, rfl⟩
  profile i h := by
    cases h
    exact Nat.zero_lt_one
  values v x hx := by
    obtain rfl := Operands.get?_replicate hx
    exact Nat.lt_succ_self 1
  fields m record _ hrecord p hp := by
    rcases records m record hrecord with ⟨-, hproperties⟩ | ⟨-, hproperties⟩ <;>
      rw [hproperties, List.mem_singleton] at hp <;>
      subst hp
    · exact Nat.zero_lt_one
    · exact Nat.zero_lt_two

end NestedObjects

open NestedObjects in
/-- The activation is built before the function that closes over it. -/
theorem resolve_builds_nested :
    table.exit? captured.exit = some NestedObjects.exit ∧ table.Sufficient captured
      NestedObjects.exit ∧
    (∀ m, (∃ p ∈ table.objects allocator captured 4, p.1.id = m) ↔ table.Reached NestedObjects.exit
      m) ∧
    ∃ F, (table.resolve allocator captured 4).1 = .ok F ∧ F.operands.get? (.loc 0) = some 80 := by
  obtain ⟨-, -, -, -, hdone⟩ := resolve_builds (t := table) (c := captured) (e :=
    NestedObjects.exit) rfl sufficient allocator 4
  obtain ⟨hobjects, F, hF, -⟩ := hdone fun m _ => not_inCycle m
  refine ⟨rfl, sufficient, hobjects, F, hF, ?_⟩
  have hresult : (table.resolve allocator captured 4).1.map (fun F => F.operands.get? (.loc 0))
    = .ok (some 80) := by cbv
  rw [hF] at hresult
  exact Except.ok.inj hresult

end ExitTable

end SpecJit

/-! ## Recoveries -/

namespace SpecJit.RecoveryOp

variable {op : RecoveryOp}

/-- The operation on integers without bounds. -/
def onInts : RecoveryOp → Int → Int → Int
  | .add, x, y => x + y
  | .sub, x, y => x - y

/-! ## Wrapping -/

theorem apply32_eq (l r : Int32) :
    op.apply32 l r = Int32.ofInt ((op.onInts l.toInt r.toInt).bmod (2 ^ 32)) := by
  apply Int32.toInt_inj.1
  cases op <;> simp [apply32, onInts]

theorem toInt_apply64 (l r : Int64) :
    (op.apply64 l r).toInt = (op.onInts l.toInt r.toInt).bmod (2 ^ 64) := by
  cases op <;> simp [apply64, onInts]

theorem apply64_shiftInt52 (a b : Int64) :
    (op.apply64 (Value.shiftInt52 a).toInt64 (Value.shiftInt52 b).toInt64).toUInt64
      = Value.shiftInt52 (op.apply64 a b) := by
  cases op with
  | add =>
    rw [apply64, Int64.toUInt64_add]
    exact Value.shiftInt52_add a b
  | sub =>
    rw [apply64, Int64.toUInt64_sub]
    exact Value.shiftInt52_sub a b

theorem wrapInt52_eq_sshr (n : Int64) : wrapInt52 n = (Value.shiftInt52 n).toInt64 >>> 12 := rfl

theorem toInt_wrapInt52 (n : Int64) : (wrapInt52 n).toInt = n.toInt.bmod (2 ^ 52) := by
  rw [wrapInt52_eq_sshr, Value.toInt_sshr12, Value.toInt_shiftInt52_bmod]
  simp only [Int.bmod]
  omega

/-- What wraps at 64 bits first wraps at 52 bits as the exact result does. -/
theorem wrapInt52_apply64 (a b : Int64) :
    wrapInt52 (op.apply64 a b) = Int64.ofInt ((op.onInts a.toInt b.toInt).bmod (2 ^ 52)) := by
  have hle := Int.le_bmod (x := op.onInts a.toInt b.toInt) (m := 2 ^ 52) (by decide)
  have hlt := Int.bmod_lt (x := op.onInts a.toInt b.toInt) (m := 2 ^ 52) (by decide)
  apply Int64.toInt_inj.1
  rw [toInt_wrapInt52, toInt_apply64, Int.bmod_bmod_of_dvd (by decide),
    (Value.toInt_ofInt52 ⟨by omega, by omega⟩).1]

/-! ## Recovered values -/

theorem recover?_int52 (a b : Int64) :
    (op.recover? (Value.shiftInt52 a) (Value.shiftInt52 b) .int52).map ValueFormat.int52.rebox =
      some (Value.boxInt52 (wrapInt52 (op.apply64 a b))) := by
  rw [recover?, Option.map_some, apply64_shiftInt52, wrapInt52_eq_sshr]
  rfl

theorem recover?_strictInt52 (a b : Int64) :
    (op.recover? a.toUInt64 b.toUInt64 .strictInt52).map ValueFormat.strictInt52.rebox =
      some (Value.boxInt52 (wrapInt52 (op.apply64 a b))) := by
  rw [recover?, Option.map_some, ValueFormat.rebox, Int64.toInt64_toUInt64, Int64.toInt64_toUInt64,
    Int64.toInt64_toUInt64]

theorem recover?_int32 (l r : Word) :
    (op.recover? l r .int32).map ValueFormat.int32.rebox =
      some (Value.boxInt32 (op.apply32 (Value.unboxInt32 l) (Value.unboxInt32 r))) := by
  rw [recover?, Option.map_some, ValueFormat.rebox, UInt32.toUInt32_toUInt64,
    Int32.toInt32_toUInt32]
  rfl

/-- A recovery on integers of 52 bits gives the boxed exact result, wrapped to 52 bits, whether the
integers were captured shifted or as they are, and one on integers of 32 bits that wrapped to 32
bits, whatever the upper halves of the words. -/
theorem recovered_integers (op : RecoveryOp) :
    (∀ a b : Int64,
      (op.recover? (Value.shiftInt52 a) (Value.shiftInt52 b) .int52).map ValueFormat.int52.rebox =
          some (Value.boxInt52 (Int64.ofInt ((op.onInts a.toInt b.toInt).bmod (2 ^ 52)))) ∧
        (op.recover? a.toUInt64 b.toUInt64 .strictInt52).map ValueFormat.strictInt52.rebox =
          some (Value.boxInt52 (Int64.ofInt ((op.onInts a.toInt b.toInt).bmod (2 ^ 52))))) ∧
      ∀ l r : Word, (op.recover? l r .int32).map ValueFormat.int32.rebox =
        some (Value.boxInt32
          (Int32.ofInt ((op.onInts (Value.unboxInt32 l).toInt (Value.unboxInt32 r).toInt).bmod
            (2 ^ 32)))) := by
  refine ⟨fun a b => ?_, fun l r => ?_⟩
  · rw [← wrapInt52_apply64]
    exact ⟨recover?_int52 a b, recover?_strictInt52 a b⟩
  · rw [← apply32_eq]
    exact recover?_int32 l r

/-- The largest integer of 52 bits is followed by the smallest one. -/
example :
    (RecoveryOp.add.recover? (Value.shiftInt52 0x7ffffffffffff) (Value.shiftInt52 1) .int52).map
    ValueFormat.int52.rebox =
    some (Value.boxInt52 (-0x8000000000000)) := by decide +kernel

end SpecJit.RecoveryOp
