import Mathlib.Algebra.Group.Nat.Defs
import SpecJit.Op.Payload

/-!
# Reading back what was written

A value of the interchange format that is written and read again is the same value. The indices and
counts of the format have 32 bits, so a value has to fit (`Sized.Fits`); every other type is
`Lossless`. Here are the leaves, the containers and the two shapes that all other types have: a
record is read field by field (`read_record`), a variant by its name (`read_variant`).
-/

namespace SpecJit

/-- Types of which every value is read back as it was written. -/
class Lossless (α : Type) [Encode α] [Decode α] : Prop where
  read (a : α) : decode (encode a) = some a

/-- Types with a size that the format bounds. -/
class Sized (α : Type) where
  /-- Every index and count in the value has 32 bits. -/
  Fits : α → Prop

export Sized (Fits)

/-- Types of which the values that fit are read back as they were written. -/
class Faithful (α : Type) [Encode α] [Decode α] [Sized α] : Prop where
  read {a : α} (h : Fits a) : decode (encode a) = some a

/-- Types that never write `null`. -/
class NeverNull (α : Type) [Encode α] : Prop where
  encode_ne (a : α) : encode a ≠ .null

@[simp] theorem read_lossless {α : Type} [Encode α] [Decode α] [Lossless α] (a : α) :
    decode (encode a) = some a :=
  Lossless.read a

theorem read_fits {α : Type} [Encode α] [Decode α] [Sized α] [Faithful α] {a : α} (h : Fits a) :
    decode (encode a) = some a :=
  Faithful.read h

instance (priority := low) {α : Type} [Encode α] [Decode α] [Lossless α] : Sized α :=
  ⟨fun _ => True⟩
instance (priority := low) {α : Type} [Encode α] [Decode α] [Lossless α] : Faithful α :=
  ⟨fun {a} _ => read_lossless a⟩

/-! ## Leaves -/

namespace Json

theorem intIn?_int {lo hi n : Int} (h : lo ≤ n ∧ n < hi) : intIn? lo hi (.int n) = some n :=
  if_pos h

theorem nat?_int {bits n : Nat} (h : n < 2 ^ bits) : nat? bits (.int n) = some n := by
  rw [nat?,
    intIn?_int ⟨Int.natCast_nonneg n, by rw [Nat.shiftLeft_eq, Nat.one_mul]; exact_mod_cast h⟩]
  rfl

end Json

instance : Lossless Bool := ⟨fun _ => rfl⟩
instance : Lossless String := ⟨fun _ => rfl⟩
instance : Lossless UInt8 := ⟨fun w => by simp [decode, encode, Json.nat?_int w.toNat_lt]⟩
instance : Lossless UInt16 := ⟨fun w => by simp [decode, encode, Json.nat?_int w.toNat_lt]⟩
instance : Lossless UInt32 := ⟨fun w => by simp [decode, encode, Json.nat?_int w.toNat_lt]⟩
instance : Lossless UInt64 := ⟨fun w => by simp [decode, encode, Json.nat?_int w.toNat_lt]⟩
instance : Lossless Int32 := ⟨fun w => by
  have h : Json.intIn? (-0x80000000) 0x80000000 (.int w.toInt) = some w.toInt :=
    Json.intIn?_int ⟨w.le_toInt, w.toInt_lt⟩
  simp [decode, encode, h]⟩
instance : Lossless Int64 := ⟨fun w => by
  have h : Json.intIn? (-0x8000000000000000) 0x8000000000000000 (.int w.toInt) = some w.toInt :=
    Json.intIn?_int ⟨w.le_toInt, w.toInt_lt⟩
  simp [decode, encode, h]⟩

instance : Sized Nat := ⟨fun n => n < 2 ^ 32⟩
instance : Faithful Nat := ⟨fun h => Json.nat?_int h⟩

instance : NeverNull Nat := ⟨fun _ => Json.noConfusion⟩
instance : NeverNull UInt64 := ⟨fun _ => Json.noConfusion⟩

/-! ## Containers -/

section Containers

variable {α β : Type} [Encode α] [Decode α] [Encode β] [Decode β]

omit [Encode α] in
theorem decode_option {j : Json} (h : j ≠ .null) :
    (decode j : Option (Option α)) = (decode j).map some := by
  cases j with
  | null => exact absurd rfl h
  | _ => rfl

theorem read_option [NeverNull α] {o : Option α} (h : ∀ a, o = some a → decode (encode a) = some a)
    :
    decode (encode o) = some o := by
  cases o with
  | none => rfl
  | some a =>
    show decode (encode a) = some (some a)
    rw [decode_option (NeverNull.encode_ne a), h a rfl, Option.map_some]

instance [Sized α] : Sized (Option α) := ⟨fun o => ∀ a, o = some a → Fits a⟩
instance [Sized α] [Faithful α] [NeverNull α] : Faithful (Option α) :=
  ⟨fun h => read_option fun a ha => read_fits (h a ha)⟩
instance [Lossless α] [NeverNull α] : Lossless (Option α) :=
  ⟨fun _ => read_option fun a _ => read_lossless a⟩

instance [Sized α] : Sized (List α) := ⟨fun l => ∀ a ∈ l, Fits a⟩

theorem mapM_decode {l : List α} (h : ∀ a ∈ l, decode (encode a) = some a) :
    (l.map encode).mapM decode = some l := by
  induction l with
  | nil => rfl
  | cons a l ih =>
    rw [List.forall_mem_cons] at h
    rw [List.map_cons, List.mapM_cons, h.1, ih h.2]
    rfl

instance [Sized α] [Faithful α] : Faithful (List α) :=
  ⟨fun h => mapM_decode fun a ha => read_fits (h a ha)⟩

instance [Sized α] : Sized (Array α) := ⟨fun l => ∀ a ∈ l, Fits a⟩

instance [Sized α] [Faithful α] : Faithful (Array α) where
  read {l} h := by
    have hlist : decode (encode l.toList) = some l.toList :=
      read_fits fun a ha => h a (Array.mem_toList_iff.1 ha)
    show (decode (encode l.toList) : Option (List α)).map List.toArray = some l
    rw [hlist, Option.map_some, Array.toArray_toList]

instance [Sized α] [Sized β] : Sized (α × β) := ⟨fun p => Fits p.1 ∧ Fits p.2⟩

instance [Sized α] [Sized β] [Faithful α] [Faithful β] : Faithful (α × β) where
  read {p} h := by
    show (do return (← decode (encode p.1), ← decode (encode p.2)) : Option (α × β)) = some p
    rw [read_fits h.1, read_fits h.2]
    rfl

end Containers

/-! ## Records and variants -/

namespace Json

variable {α : Type} [Decode α] {members : List (String × Json)} {names : List String}
  {name key : String} {j : Json}

/-- A record that is written with all its fields is read as these fields. -/
theorem fields?_obj (hnames : members.map (·.1) = names) (hdistinct : names.Nodup) :
    fields? names (.obj members) = some (.named members) := by
  subst hnames
  have hknown : (members.filter fun m => (members.map (·.1)).contains m.1) = members := by
    rw [List.filter_eq_self]
    intro m hm
    exact List.contains_iff_mem.2 (List.mem_map_of_mem hm)
  simp only [fields?, hknown, hdistinct, if_true]

namespace Fields

@[simp] theorem get_cons (members : List (String × Json)) (name : String) (j : Json) :
    (named ((name, j) :: members)).get name = (decode j : Option α) := by simp [get]

@[simp] theorem get_cons_of_ne (j : Json) (h : name ≠ key) :
    (named ((key, j) :: members)).get name = ((named members).get name : Option α) := by
  simp [get, List.lookup_cons, beq_eq_false_iff_ne.2 h]

@[simp] theorem opt_cons (members : List (String × Json)) (name : String) (j : Json) :
    (named ((name, j) :: members)).opt name = (decode j : Option (Option α)) := by simp [opt]

@[simp] theorem opt_cons_of_ne (j : Json) (h : name ≠ key) :
    (named ((key, j) :: members)).opt name = ((named members).opt name : Option (Option α)) := by
  simp [opt, List.lookup_cons, beq_eq_false_iff_ne.2 h]

@[simp] theorem getD_cons (members : List (String × Json)) (name : String) (j : Json) (default : α)
    :
    (named ((name, j) :: members)).getD name default = decode j := by simp [getD]

@[simp] theorem getD_cons_of_ne (j : Json) (default : α) (h : name ≠ key) :
    (named ((key, j) :: members)).getD name default = (named members).getD name default := by
  simp [getD, List.lookup_cons, beq_eq_false_iff_ne.2 h]

end Fields

end Json

/-- A wrapper is put around its content again. -/
theorem read_map {α β : Type} [Decode α] {j : Json} {a : α} (make : α → β) (h : decode j = some a) :
    (decode j).map make = some (make a) := by
  rw [h, Option.map_some]

section Shapes

variable {α β : Type} [Encode α] [Decode α] [Encode β] [Decode β] {a b : α}

/-- A value written as a record is read as what its fields are read as. -/
theorem read_record {names : List String} {members : List (String × Json)}
    {k : Json.Fields → Option α} (hencode : encode a = .obj members)
    (hdecode : ∀ j, decode j = (Json.fields? names j).bind k) (hnames : members.map (·.1) = names)
    (hdistinct : names.Nodup) (hfields : k (.named members) = some b) :
    decode (encode a) = some b := by
  rw [hencode, hdecode, Json.fields?_obj hnames hdistinct, Option.bind_some, hfields]

/-- A variant is read back, if its payload is. -/
theorem read_variant {name : String} (make : α → β) (hread : decode (encode a) = some a)
    (hencode : encode (make a) = Json.variant name (encode a))
    (hdecode : ∀ j, decode (Json.variant name j) = (decode j).bind fun a => some (make a)) :
    decode (encode (make a)) = some (make a) := by
  rw [hencode, hdecode, hread, Option.bind_some]

/-- A variant with named fields is read back, if they are. -/
theorem read_record_variant {name : String} {names : List String} {members : List (String × Json)}
    {k : Json.Fields → Option α} (hencode : encode a = Json.variant name (.obj members))
    (hdecode : ∀ j, decode (Json.variant name j) = (Json.fields? names j).bind k)
    (hnames : members.map (·.1) = names) (hdistinct : names.Nodup)
    (hfields : k (.named members) = some a) :
    decode (encode a) = some a := by
  rw [hencode, hdecode, Json.fields?_obj hnames hdistinct, Option.bind_some, hfields]

end Shapes

/-! ## Enumerations -/

instance : Lossless FlushFormat := ⟨fun f => by cases f <;> rfl⟩
instance : Lossless ElementKind := ⟨fun k => by cases k <;> rfl⟩
instance : Lossless CellType := ⟨fun c => by
  cases c with
  | typedArray kind => cases kind <;> rfl
  | _ => rfl⟩
instance : Lossless UseKind := ⟨fun k => by cases k <;> rfl⟩
instance : Lossless ArithMode := ⟨fun m => by cases m <;> rfl⟩
instance : Lossless RoundingMode := ⟨fun m => by cases m <;> rfl⟩
instance : Lossless ArrayType := ⟨fun t => by
  cases t with
  | typedArray kind => cases kind <;> rfl
  | _ => rfl⟩
instance : Lossless ArraySpeculation := ⟨fun s => by cases s <;> rfl⟩
instance : Lossless SwitchKind := ⟨fun k => by cases k <;> rfl⟩

/-! ## Names, positions and constants -/

instance : Lossless Double := ⟨fun d => read_map Double.mk (read_lossless d.bits)⟩
instance : Lossless SpecType := ⟨fun t => read_map SpecType.mk (read_lossless t.bits)⟩
instance : Lossless IndexingType := ⟨fun t => read_map IndexingType.mk (read_lossless t.byte)⟩
instance : Lossless TypeInfoFlags := ⟨fun f => read_map TypeInfoFlags.mk (read_lossless f.byte)⟩

instance : Sized NodeId := ⟨fun n => Fits n.index⟩
instance : Sized BlockIndex := ⟨fun b => Fits b.index⟩
instance : Sized IdentifierIndex := ⟨fun i => Fits i.index⟩
instance : Sized StructureId := ⟨fun i => Fits i.index⟩
instance : Sized PropertyOffset := ⟨fun o => Fits o.index⟩
instance : Sized CodeOrigin := ⟨fun o => Fits o.bytecodeIndex⟩
instance : Sized Operand := ⟨fun | .arg i | .loc i => Fits i⟩
instance {α : Type} [Sized α] : Sized (Operands α) := ⟨fun o => Fits o.arguments ∧ Fits o.locals⟩
instance : Sized CellConstant := ⟨fun c => Fits c.structureId⟩
instance : Sized FrozenValue := ⟨fun | .cell c => Fits c | _ => True⟩
instance : Sized StructureSet := ⟨fun s => Fits s.ids⟩

instance : Faithful NodeId := ⟨fun {n} h => read_map NodeId.mk (read_fits (a := n.index) h)⟩
instance : Faithful BlockIndex := ⟨fun {b} h => read_map BlockIndex.mk (read_fits (a := b.index) h)⟩
instance : Faithful IdentifierIndex :=
  ⟨fun {i} h => read_map IdentifierIndex.mk (read_fits (a := i.index) h)⟩
instance : Faithful StructureId :=
  ⟨fun {i} h => read_map StructureId.mk (read_fits (a := i.index) h)⟩
instance : Faithful PropertyOffset :=
  ⟨fun {o} h => read_map PropertyOffset.mk (read_fits (a := o.index) h)⟩

instance : NeverNull StructureId := ⟨fun _ => Json.noConfusion⟩
instance : NeverNull StringConstant := ⟨fun _ => Json.noConfusion⟩

instance : Faithful CodeOrigin where
  read {o} h := by
    refine read_record rfl (fun _ => rfl) rfl (by simp) ?_
    simp [read_fits (a := o.bytecodeIndex) h]

instance : Faithful Operand where
  read {v} h := by
    cases v with
    | arg i => exact read_variant Operand.arg (read_fits h) rfl fun _ => rfl
    | loc i => exact read_variant Operand.loc (read_fits h) rfl fun _ => rfl

instance {α : Type} [Encode α] [Decode α] [Sized α] [Faithful α] : Faithful (Operands α) where
  read h := by
    refine read_record rfl (fun _ => rfl) rfl (by simp) ?_
    simp [read_fits h.1, read_fits h.2]

instance : Lossless StringConstant where
  read s := by
    refine read_record rfl (fun _ => rfl) rfl (by simp) ?_
    simp

instance : Faithful CellConstant where
  read {c} h := by
    refine read_record rfl (fun _ => rfl) rfl (by simp) ?_
    simp [read_fits (a := c.structureId) h]

instance : Faithful FrozenValue where
  read {v} h := by
    cases v with
    | empty | undefined | null => rfl
    | boolean b => exact read_variant FrozenValue.boolean (read_lossless b) rfl fun _ => rfl
    | int32 n => exact read_variant FrozenValue.int32 (read_lossless n) rfl fun _ => rfl
    | double d => exact read_variant FrozenValue.double (read_lossless d) rfl fun _ => rfl
    | cell c => exact read_variant FrozenValue.cell (read_fits h) rfl fun _ => rfl

instance : Faithful StructureSet where
  read {s} h := by
    refine read_record rfl (fun _ => rfl) rfl (by simp) ?_
    simp [read_fits (a := s.ids) h]

end SpecJit
