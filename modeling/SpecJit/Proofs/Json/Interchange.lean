import SpecJit.Exit
import SpecJit.Graph.Codec
import SpecJit.Proofs.Json.Operations
import SpecJit.Proofs.Tables

/-!
# Graphs and exit tables are read back

A well-formed graph that is written and read again is the same graph, and so is an exit table
(`Graph.ofJson_encode`, `ExitTable.read`). The one thing that is not kept to the letter is the order
in which liveness lists its positions and variables: the entries are a map from positions to sets of
variables (`Liveness.SameMap`), written as an object whose keys are the positions in decimal digits
(`natKey?_toString`).
-/

namespace SpecJit

/-! ## Structures -/

instance : Sized PropertyEntry := ⟨fun e => Fits e.identifier ∧ Fits e.offset⟩
instance : Sized Structure := ⟨fun s => Fits s.id ∧ Fits s.inlineCapacity ∧ Fits s.properties⟩
instance : Sized Registry := ⟨fun r => Fits r.slots⟩

instance : Faithful PropertyEntry where
  read h := by
    refine read_record rfl (fun _ => rfl) rfl (by simp) ?_
    simp [read_fits h.1, read_fits h.2]

instance : Faithful Structure where
  read h := by
    refine read_record rfl (fun _ => rfl) rfl (by simp) ?_
    simp [read_fits h.1, read_fits h.2.1, read_fits h.2.2]

instance : NeverNull Structure := ⟨fun _ => Json.noConfusion⟩

/-- A place of the registry without structure is read back as one. -/
instance : Faithful Registry where
  read {r} h := by
    refine read_record rfl (fun _ => rfl) rfl (by simp) ?_
    simp [read_fits (a := r.slots) h]

/-! ## Liveness -/

/-- The first digit of a positive number is not 0. -/
theorem head?_toDigits {n : Nat} (h : 0 < n) : (Nat.toDigits 10 n).head? ≠ some '0' := by
  induction n using Nat.strongRecOn with
  | ind n ih =>
    by_cases hlt : n < 10
    · rw [Nat.toDigits_of_lt_base hlt]
      match n, h, hlt with
      | 1, _, _ | 2, _, _ | 3, _, _ | 4, _, _ | 5, _, _ | 6, _, _ | 7, _, _ | 8, _, _ | 9, _, _ =>
        decide
    · rw [Nat.toDigits_of_base_le (by decide) (by omega),
        List.head?_append_of_ne_nil _ Nat.toDigits_ne_nil]
      exact ih (n / 10) (by omega) (by omega)

/-- A position is read back from its decimal digits. -/
theorem natKey?_toString {n : Nat} (h : n < 2 ^ 32) : Json.natKey? (toString n) = some n := by
  have hdigits : (toString n).toList = Nat.toDigits 10 n := by
    rw [Nat.toString_eq_ofList_toDigits, String.toList_ofList]
  have hempty : (Nat.toDigits 10 n).isEmpty = false :=
    List.isEmpty_eq_false_iff.2 Nat.toDigits_ne_nil
  have hall : (Nat.toDigits 10 n).all Char.isDigit = true :=
    List.all_eq_true.2 fun c hc => Nat.isDigit_of_mem_toDigits (by decide) (by decide) hc
  have hzero : (decide ((Nat.toDigits 10 n).length > 1) && (Nat.toDigits 10 n).head? == some '0')
    = false := by
    rcases Nat.eq_zero_or_pos n with rfl | hpos
    · decide
    · rw [beq_eq_false_iff_ne.2 (head?_toDigits hpos), Bool.and_false]
  have hvalue : (Nat.toDigits 10 n).foldl (fun n c => 10 * n + (c.toNat - '0'.toNat)) 0 = n := by
    rw [← Nat.ofDigitChars_eq_foldl, Nat.ofDigitChars_ten_toDigits]
  simp only [Json.natKey?, hdigits, hempty, hall, hzero, hvalue, Bool.not_true, Bool.or_false,
    Bool.false_eq_true, if_false]
  exact if_pos h

namespace Liveness

variable {l : Liveness}

/-- The same positions have entries, with the same variables. -/
def SameMap (l l' : Liveness) : Prop :=
  ∀ i, Option.Rel (fun s s' => ∀ v, v ∈ s ↔ v ∈ s') (l.at? i) (l'.at? i)

theorem at?_setLive (l : Liveness) (k : Nat) (s : List Operand) (i : Nat) :
    (l.setLive k s).at? i = if i = k then some s.eraseDups else l.at? i :=
  lookup_replace l.entries k i s.eraseDups

/-- Every position is one of 32 bits and has one entry. -/
structure Fits (l : Liveness) : Prop where
  nodup : (l.entries.map (·.1)).Nodup
  fits : ∀ e ∈ l.entries, SpecJit.Fits e.1 ∧ SpecJit.Fits e.2

/-- The members that a table of positions is written as. -/
def members (entries : List (Nat × List Operand)) : List (String × Json) :=
  entries.map fun e => (toString e.1, encode e.2)

/-- The entries are read one after the other into what was read before. -/
theorem foldlM_members {entries : List (Nat × List Operand)} (hnodup : (entries.map (·.1)).Nodup)
    (hfits : ∀ e ∈ entries, SpecJit.Fits e.1 ∧ SpecJit.Fits e.2) (l : Liveness) :
    ∃ l',
      (members entries).foldlM
        (fun (l : Liveness) m => do return l.setLive (← Json.natKey? m.1) (← decode m.2)) l =
        some l' ∧
      ∀ i, l'.at? i = ((entries.lookup i).map List.eraseDups).or (l.at? i) := by
  induction entries generalizing l with
  | nil => exact ⟨l, rfl, fun i => rfl⟩
  | cons e entries ih =>
    obtain ⟨k, s⟩ := e
    rw [List.map_cons, List.nodup_cons] at hnodup
    rw [List.forall_mem_cons] at hfits
    obtain ⟨l', hread, hat⟩ := ih hnodup.2 hfits.2 (l.setLive k s)
    refine ⟨l', ?_, fun i => ?_⟩
    · rw [members, List.map_cons, List.foldlM_cons, natKey?_toString hfits.1.1, read_fits hfits.1.2]
      exact hread
    · rw [hat, at?_setLive]
      by_cases hi : i = k
      · subst hi
        have hnone : entries.lookup i = none := by
          rw [← Option.not_isSome_iff_eq_none, lookup_isSome_iff]
          exact hnodup.1
        simp [hnone]
      · have hbeq : (i == k) = false := by simpa using hi
        rw [if_neg hi, List.lookup_cons, hbeq]

theorem read (h : l.Fits) : ∃ l', decode (encode l) = some l' ∧ l.SameMap l' := by
  obtain ⟨l', hread, hat⟩ := foldlM_members h.nodup h.fits {}
  refine ⟨l', ?_, fun i => ?_⟩
  · refine read_record rfl (fun _ => rfl) rfl (by simp) ?_
    exact hread
  · rw [hat, Liveness.at?]
    cases l.entries.lookup i with
    | none => exact .none
    | some s => exact .some fun v => List.mem_eraseDups.symm

end Liveness

/-! ## Graphs -/

instance : Sized Edge := ⟨fun e => Fits e.node⟩
instance : Sized Node := ⟨fun n => Fits n.op ∧ Fits n.children ∧ Fits n.origin⟩
instance : Sized BasicBlock := ⟨fun b => Fits b.index ∧ Fits b.nodes ∧ Fits b.predecessors⟩

instance : Faithful Edge where
  read {e} h := by
    refine read_record rfl (fun _ => rfl) rfl (by simp) ?_
    simp [read_fits (a := e.node) h]

instance : Lossless NodeResult := ⟨fun r => by cases r <;> rfl⟩

instance : Faithful Node where
  read h := by
    refine read_record rfl (fun _ => rfl) rfl (by simp) ?_
    simp [read_fits h.1, read_fits h.2.1, read_fits h.2.2]

instance : Faithful BasicBlock where
  read h := by
    refine read_record rfl (fun _ => rfl) rfl (by simp) ?_
    simp [read_fits h.1, read_fits h.2.1, read_fits h.2.2]

namespace Graph

variable {g : Graph}

/-- Every index and count in the graph has 32 bits, and liveness has one entry for a position. -/
structure Fits (g : Graph) : Prop where
  nodes : SpecJit.Fits g.nodes
  blocks : SpecJit.Fits g.blocks
  numArguments : SpecJit.Fits g.numArguments
  numLocals : SpecJit.Fits g.numLocals
  structures : SpecJit.Fits g.structures
  liveness : g.liveness.Fits

/-- What is read of a graph that was written. -/
theorem read (h : g.Fits) :
    ∃ l, decode (encode g) = some { g with liveness := l } ∧ g.liveness.SameMap l := by
  obtain ⟨l, hread, hsame⟩ := Liveness.read h.liveness
  have hidentifiers : decode (encode g.identifiers) = some g.identifiers :=
    read_fits fun _ _ => trivial
  refine ⟨l, ?_, hsame⟩
  refine read_record rfl (fun _ => rfl) rfl (by simp) ?_
  simp [read_fits h.nodes, read_fits h.blocks, read_fits h.numArguments, read_fits h.numLocals,
    hidentifiers, read_fits h.structures, hread]

/-- Predecessors do not depend on liveness. -/
theorem computePredecessors_withLiveness (g : Graph) (l : Liveness) :
    ({ g with liveness := l } : Graph).computePredecessors =
      g.computePredecessors.map fun g' => { g' with liveness := l } := by
  by_cases h : g.lastNodesExist = true
  · have h' : ({ g with liveness := l } : Graph).lastNodesExist = true := h
    rw [computePredecessors, computePredecessors, if_pos h, if_pos h']
    rfl
  · have h' : ¬ ({ g with liveness := l } : Graph).lastNodesExist = true := h
    rw [computePredecessors, computePredecessors, if_neg h, if_neg h']
    rfl

theorem ofJson_encode (hfits : g.Fits) (hpredecessors : g.computePredecessors = .ok g)
    (hvalid : g.validate = .ok ()) :
    ∃ l, Graph.ofJson (encode g) = .ok { g with liveness := l } ∧ g.liveness.SameMap l := by
  obtain ⟨l, hread, hsame⟩ := read hfits
  have hunchecked : ofJsonUnchecked (encode g) = .ok { g with liveness := l } := by
    rw [ofJsonUnchecked, hread]
    dsimp only
    rw [computePredecessors_withLiveness, hpredecessors]
    rfl
  have hvalidate : ({ g with liveness := l } : Graph).validate = .ok () := hvalid
  refine ⟨l, ?_, hsame⟩
  rw [ofJson, hunchecked]
  show (do ({ g with liveness := l } : Graph).validate.mapError LoadError.invalid; return _) = _
  rw [hvalidate]
  rfl

end Graph

/-! ## Exit tables -/

instance : Sized MaterializationId := ⟨fun i => Fits i.index⟩
instance : Sized ExitValue where
  Fits
    | .inStack slot _ => Fits slot
    | .argument index _ => Fits index
    | .recovery _ left right _ => Fits left ∧ Fits right
    | .materialize id => Fits id
    | _ => True
instance : Sized Materialization := ⟨fun m => Fits m.origin ∧ Fits m.properties⟩
instance : Sized OsrExit := ⟨fun e => Fits e.origin ∧ Fits e.profileValue ∧ Fits e.values⟩
instance : Sized ExitTable := ⟨fun t => Fits t.exits ∧ Fits t.materializations⟩

instance : Lossless ExitKind := ⟨fun k => by cases k <;> rfl⟩
instance : Lossless ValueFormat := ⟨fun f => by cases f <;> rfl⟩
instance : Lossless RecoveryOp := ⟨fun o => by cases o <;> rfl⟩
instance : Lossless MaterializationKind := ⟨fun k => by cases k <;> rfl⟩

instance : Faithful MaterializationId :=
  ⟨fun {i} h => read_map MaterializationId.mk (read_fits (a := i.index) h)⟩

instance : Faithful ExitValue where
  read {v} h := by
    cases v with
    | dead => rfl
    | constant w => exact read_variant ExitValue.constant (read_lossless w) rfl fun _ => rfl
    | inStack slot format =>
      refine read_record_variant rfl (fun _ => rfl) rfl (by simp) ?_
      simp [read_fits (a := slot) h]
    | argument index format =>
      refine read_record_variant rfl (fun _ => rfl) rfl (by simp) ?_
      simp [read_fits (a := index) h]
    | recovery op left right format =>
      refine read_record_variant rfl (fun _ => rfl) rfl (by simp) ?_
      simp [read_fits (a := left) h.1, read_fits (a := right) h.2]
    | materialize id => exact read_variant ExitValue.materialize (read_fits h) rfl fun _ => rfl

instance : Faithful Materialization where
  read h := by
    refine read_record rfl (fun _ => rfl) rfl (by simp) ?_
    simp [read_fits h.1, read_fits h.2]

instance : Faithful OsrExit where
  read h := by
    refine read_record rfl (fun _ => rfl) rfl (by simp) ?_
    simp [read_fits h.1, read_fits h.2.1, read_fits h.2.2]

instance : Faithful ExitTable where
  read h := by
    refine read_record rfl (fun _ => rfl) rfl (by simp) ?_
    simp [read_fits h.1, read_fits h.2]

/-! ## The whole format -/

/-- **What is written is read back.** A well-formed graph with its predecessors computed is read as
itself, up to the order in which liveness lists a map of sets, and every exit table is read as
itself. -/
theorem interchange_round_trip :
    (∀ g : Graph, g.Fits → g.computePredecessors = .ok g → g.validate = .ok () →
      ∃ l, Graph.ofJson (encode g) = .ok { g with liveness := l } ∧ g.liveness.SameMap l) ∧
    ∀ t : ExitTable, Fits t → decode (encode t) = some t :=
  ⟨fun _ hfits hpredecessors hvalid => Graph.ofJson_encode hfits hpredecessors hvalid,
    fun _ h => read_fits h⟩

/-- A graph of one block, with a hole among its structures and a position with two live variables.
-/
def holedGraph : Graph where
  name := "f"
  nodes :=
    #[{ op := .int52Constant (-0x8000000000000) }, { op := .doubleConstant ⟨0xffffffffffffffff⟩ },
    { op := .unreachable }]
  blocks := #[{ index := ⟨0⟩, nodes := #[⟨0⟩, ⟨1⟩, ⟨2⟩] }]
  numArguments := 2
  numLocals := 1
  structures := ⟨#[none, some { id := ⟨1⟩, cellType := .array }]⟩
  liveness := ⟨[(7, [.arg 1, .loc 0])]⟩

/-- A table of one exit that builds an object with a field. -/
def buildingTable : ExitTable where
  exits := #[{ kind := .badType, origin := {}, profileValue := some 0,
               values := ⟨#[.argument 0 .jsValue], #[.materialize ⟨0⟩]⟩ }]
  materializations := #[{ kind := .newObject, origin := {},
                          properties := [(.namedProperty ⟨0⟩, .constant 0xffffffffffffffff)] }]

theorem interchange_round_trip_holed :
    (∃ l, Graph.ofJson (encode holedGraph) = .ok { holedGraph with liveness := l } ∧
      holedGraph.liveness.SameMap l) ∧
      decode (encode buildingTable) = some buildingTable := by
  have hpredecessors : holedGraph.computePredecessors = .ok holedGraph := by
    have hnone : holedGraph.predecessorsOf ⟨0⟩ = [] := by decide
    have hexist : holedGraph.lastNodesExist = true := by
      simp [Graph.lastNodesExist, holedGraph, Graph.node?]
    have hblocks :
      (holedGraph.blocks.mapIdx fun i b => { b with predecessors := holedGraph.predecessorsOf ⟨i⟩ })
        =
        holedGraph.blocks := by
      simp [show holedGraph.blocks = #[{ index := ⟨0⟩, nodes := #[⟨0⟩, ⟨1⟩, ⟨2⟩] }] from rfl, hnone]
    rw [Graph.computePredecessors, if_pos hexist]
    simp only [hblocks]
  have hvalid : holedGraph.validate = .ok () := by rfl
  have hfits : holedGraph.Fits := by
    constructor
    case liveness => exact ⟨by decide, by simp [holedGraph, Sized.Fits]⟩
    all_goals simp [holedGraph, Sized.Fits]
  refine ⟨interchange_round_trip.1 holedGraph hfits hpredecessors hvalid,
    interchange_round_trip.2 buildingTable ?_⟩
  simp [buildingTable, Sized.Fits]

end SpecJit
