import SpecJit.Op.Codec
import SpecJit.Proofs.Json.Faithful

/-!
# Operations are read back

Every operation and every payload is read back as it was written. An operation without payload is
its name, and no two of them have the same one (`plain_names_distinct`); one with a payload is found
by its name among the readers.
-/

namespace SpecJit

/-! ## Payloads -/

instance : Sized StackAccess := ⟨fun a => Fits a.operand ∧ Fits a.slot⟩
instance : Sized StorageAccess := ⟨fun a => Fits a.offset ∧ Fits a.identifier⟩
instance : Sized ReadMethod := ⟨fun | .load o => Fits o | .constant v => Fits v⟩
instance : Sized ReadCase := ⟨fun c => Fits c.structures ∧ Fits c.method⟩
instance : Sized WriteCase := ⟨fun c => Fits c.oldStructures ∧ Fits c.newStructure ∧ Fits c.offset⟩
instance : Sized Transition := ⟨fun t => Fits t.previous ∧ Fits t.next⟩
instance : Sized NewArrayData := ⟨fun d => Fits d.structureId⟩
instance : Sized SwitchCase := ⟨fun c => Fits c.target⟩
instance : Sized SwitchData := ⟨fun d => Fits d.cases ∧ Fits d.fallThrough ∧ Fits d.tableIndex⟩
instance : Sized BranchData := ⟨fun d => Fits d.taken ∧ Fits d.notTaken⟩
instance : Sized VarargsData := ⟨fun d => Fits d.firstVarargOffset ∧ Fits d.limit⟩
instance : Sized LoadVarargsData :=
  ⟨fun d => Fits d.start ∧ Fits d.count ∧ Fits d.offset ∧ Fits d.limit ∧ Fits d.mandatoryMinimum⟩
instance : Sized PromotedLocation :=
  ⟨fun | .namedProperty i => Fits i | .argument i | .closureVar i => Fits i | _ => True⟩
instance : Sized MaterializeData := ⟨fun d => Fits d.structures ∧ Fits d.locations⟩

instance : Faithful StackAccess where
  read h := by
    refine read_record rfl (fun _ => rfl) rfl (by simp) ?_
    simp [read_fits h.1, read_fits h.2]

instance : Faithful StorageAccess where
  read h := by
    refine read_record rfl (fun _ => rfl) rfl (by simp) ?_
    simp [read_fits h.1, read_fits h.2]

instance : Faithful ReadMethod where
  read {m} h := by
    cases m with
    | load o => exact read_variant ReadMethod.load (read_fits h) rfl fun _ => rfl
    | constant v => exact read_variant ReadMethod.constant (read_fits h) rfl fun _ => rfl

instance : Faithful ReadCase where
  read h := by
    refine read_record rfl (fun _ => rfl) rfl (by simp) ?_
    simp [read_fits h.1, read_fits h.2]

instance : Faithful WriteCase where
  read h := by
    refine read_record rfl (fun _ => rfl) rfl (by simp) ?_
    simp [read_fits h.1, read_fits h.2.1, read_fits h.2.2]

instance : Faithful Transition where
  read h := by
    refine read_record rfl (fun _ => rfl) rfl (by simp) ?_
    simp [read_fits h.1, read_fits h.2]

instance : Lossless ArrayMode where
  read m := by
    refine read_record rfl (fun _ => rfl) rfl (by simp) ?_
    simp

instance : Faithful NewArrayData where
  read {d} h := by
    refine read_record rfl (fun _ => rfl) rfl (by simp) ?_
    simp [read_fits (a := d.structureId) h]

instance : Lossless SwitchValue where
  read v := by
    cases v with
    | int n => exact read_variant SwitchValue.int (read_lossless n) rfl fun _ => rfl
    | char c => exact read_variant SwitchValue.char (read_lossless c) rfl fun _ => rfl
    | string s => exact read_variant SwitchValue.string (read_lossless s) rfl fun _ => rfl
    | cell a => exact read_variant SwitchValue.cell (read_lossless a) rfl fun _ => rfl

instance : Faithful SwitchCase where
  read {c} h := by
    refine read_record rfl (fun _ => rfl) rfl (by simp) ?_
    simp [read_fits (a := c.target) h]

instance : Faithful SwitchData where
  read h := by
    refine read_record rfl (fun _ => rfl) rfl (by simp) ?_
    simp [read_fits h.1, read_fits h.2.1, read_fits h.2.2]

instance : Faithful BranchData where
  read h := by
    refine read_record rfl (fun _ => rfl) rfl (by simp) ?_
    simp [read_fits h.1, read_fits h.2]

instance : Faithful VarargsData where
  read h := by
    refine read_record rfl (fun _ => rfl) rfl (by simp) ?_
    simp [read_fits h.1, read_fits h.2]

instance : Faithful LoadVarargsData where
  read h := by
    refine read_record rfl (fun _ => rfl) rfl (by simp) ?_
    simp [read_fits h.1, read_fits h.2.1, read_fits h.2.2.1, read_fits h.2.2.2.1,
      read_fits h.2.2.2.2]

instance : Faithful PromotedLocation where
  read {l} h := by
    cases l with
    | namedProperty i =>
      exact read_variant PromotedLocation.namedProperty (read_fits h) rfl fun _ => rfl
    | argument i => exact read_variant PromotedLocation.argument (read_fits h) rfl fun _ => rfl
    | closureVar i => exact read_variant PromotedLocation.closureVar (read_fits h) rfl fun _ => rfl
    | _ => rfl

instance : Faithful MaterializeData where
  read h := by
    refine read_record rfl (fun _ => rfl) rfl (by simp) ?_
    simp [read_fits h.1, read_fits h.2]

/-! ## Operations -/

instance : Sized Op where
  Fits
    | .jsConstant v | .checkCell v => Fits v
    | .upsilon phi => Fits phi
    | .getStack a | .putStack a => Fits a
    | .killStack v | .movHint v | .zombieHint v | .setArgument v => Fits v
    | .checkStructure s => Fits s
    | .allocatePropertyStorage t | .reallocatePropertyStorage t | .putStructure t => Fits t
    | .getByOffset a | .putByOffset a => Fits a
    | .multiGetByOffset cases => Fits cases
    | .multiPutByOffset cases => Fits cases
    | .newObject s | .createActivation s => Fits s
    | .newArray d | .newArrayWithSize d => Fits d
    | .newArrayBuffer d elements => Fits (d, elements)
    | .getClosureVar i | .putClosureVar i | .getFromArguments i | .putToArguments i => Fits i
    | .putHint l => Fits l
    | .materializeNewObject d | .materializeCreateActivation d => Fits d
    | .getById i | .putById i | .putByIdDirect i | .throwReferenceError i => Fits i
    | .callVarargs d | .constructVarargs d | .callForwardVarargs d => Fits d
    | .loadVarargs d | .forwardVarargs d => Fits d
    | .jump target => Fits target
    | .branch d => Fits d
    | .switch d => Fits d
    | _ => True

namespace Op

theorem plain_names_distinct : (plain.map name).Nodup := by decide +kernel

/-- The operations without payload are listed. -/
theorem mem_plain {op : Op} (h : op.payload? = none) : op ∈ plain := by
  cases op with
  | bit o =>
    have hall : o ∈ BitOp.all := by cases o <;> decide
    simp [plain, hall]
  | compare o =>
    have hall : o ∈ Comparison.all := by cases o <;> decide
    simp [plain, hall]
  | isType q =>
    have hall : q ∈ TypeQuery.all := by cases q <;> decide
    simp [plain, hall]
  | phantomAllocation k =>
    have hall : k ∈ PhantomKind.all := by cases k <;> decide
    simp [plain, hall]
  | _ =>
    first
    | exact absurd h (Option.some_ne_none _)
    | iterate 4 apply List.mem_append_left
      repeat (first | exact .head _ | apply List.Mem.tail)

/-- An operation without payload is found by its name. -/
theorem find?_plain {op : Op} (hmem : op ∈ plain) :
    (plain.find? fun p => p.name == op.name) = some op := by
  have hnodup := plain_names_distinct
  generalize plain = l at hmem hnodup ⊢
  induction l with
  | nil => cases hmem
  | cons p l ih =>
    rw [List.map_cons, List.nodup_cons] at hnodup
    rcases List.mem_cons.1 hmem with rfl | hmem
    · simp
    · have hne : p.name ≠ op.name := fun h => hnodup.1 (h ▸ List.mem_map_of_mem hmem)
      rw [List.find?_cons_of_neg (by simpa using hne), ih hmem hnodup.2]

theorem read_plain {op : Op} (h : op.payload? = none) : decode (encode op) = some op := by
  simp +instances [instEncode, instDecode, h, Json.tagged?, find?_plain (mem_plain h),
    Json.Tagged.unit?]

instance : Faithful Op where
  read {op} h := by
    cases op with
    | jsConstant v => exact read_variant jsConstant (read_fits h) rfl fun _ => rfl
    | doubleConstant d => exact read_variant doubleConstant (read_lossless d) rfl fun _ => rfl
    | int52Constant n => exact read_variant int52Constant (read_lossless n) rfl fun _ => rfl
    | upsilon phi => exact read_variant upsilon (read_fits h) rfl fun _ => rfl
    | getStack a => exact read_variant getStack (read_fits h) rfl fun _ => rfl
    | putStack a => exact read_variant putStack (read_fits h) rfl fun _ => rfl
    | killStack v => exact read_variant killStack (read_fits h) rfl fun _ => rfl
    | movHint v => exact read_variant movHint (read_fits h) rfl fun _ => rfl
    | zombieHint v => exact read_variant zombieHint (read_fits h) rfl fun _ => rfl
    | setArgument v => exact read_variant setArgument (read_fits h) rfl fun _ => rfl
    | countExecution c => exact read_variant countExecution (read_lossless c) rfl fun _ => rfl
    | doubleAsInt32 m => exact read_variant doubleAsInt32 (read_lossless m) rfl fun _ => rfl
    | uint32ToNumber m => exact read_variant uint32ToNumber (read_lossless m) rfl fun _ => rfl
    | arith o m => cases o <;> exact read_variant (arith _) (read_lossless m) rfl fun _ => rfl
    | arithRound m => exact read_variant arithRound (read_lossless m) rfl fun _ => rfl
    | checkStructure s => exact read_variant checkStructure (read_fits h) rfl fun _ => rfl
    | checkCell v => exact read_variant checkCell (read_fits h) rfl fun _ => rfl
    | checkArray m => exact read_variant checkArray (read_lossless m) rfl fun _ => rfl
    | allocatePropertyStorage t =>
      exact read_variant allocatePropertyStorage (read_fits h) rfl fun _ => rfl
    | reallocatePropertyStorage t =>
      exact read_variant reallocatePropertyStorage (read_fits h) rfl fun _ => rfl
    | getByOffset a => exact read_variant getByOffset (read_fits h) rfl fun _ => rfl
    | putByOffset a => exact read_variant putByOffset (read_fits h) rfl fun _ => rfl
    | multiGetByOffset l => exact read_variant multiGetByOffset (read_fits h) rfl fun _ => rfl
    | multiPutByOffset l => exact read_variant multiPutByOffset (read_fits h) rfl fun _ => rfl
    | putStructure t => exact read_variant putStructure (read_fits h) rfl fun _ => rfl
    | newObject s => exact read_variant newObject (read_fits h) rfl fun _ => rfl
    | newArray d => exact read_variant newArray (read_fits h) rfl fun _ => rfl
    | newArrayWithSize d => exact read_variant newArrayWithSize (read_fits h) rfl fun _ => rfl
    | newArrayBuffer d l =>
      exact read_variant (a := (d, l)) (fun p => newArrayBuffer p.1 p.2) (read_fits h) rfl
        fun _ => rfl
    | getGlobalVar a => exact read_variant getGlobalVar (read_lossless a) rfl fun _ => rfl
    | putGlobalVar a => exact read_variant putGlobalVar (read_lossless a) rfl fun _ => rfl
    | getClosureVar i => exact read_variant getClosureVar (read_fits h) rfl fun _ => rfl
    | putClosureVar i => exact read_variant putClosureVar (read_fits h) rfl fun _ => rfl
    | createActivation s => exact read_variant createActivation (read_fits h) rfl fun _ => rfl
    | getFromArguments i => exact read_variant getFromArguments (read_fits h) rfl fun _ => rfl
    | putToArguments i => exact read_variant putToArguments (read_fits h) rfl fun _ => rfl
    | putHint l => exact read_variant putHint (read_fits h) rfl fun _ => rfl
    | materializeNewObject d =>
      exact read_variant materializeNewObject (read_fits h) rfl fun _ => rfl
    | materializeCreateActivation d =>
      exact read_variant materializeCreateActivation (read_fits h) rfl fun _ => rfl
    | getArrayLength m => exact read_variant getArrayLength (read_lossless m) rfl fun _ => rfl
    | getByVal m => exact read_variant getByVal (read_lossless m) rfl fun _ => rfl
    | putByVal m => exact read_variant putByVal (read_lossless m) rfl fun _ => rfl
    | arrayPush m => exact read_variant arrayPush (read_lossless m) rfl fun _ => rfl
    | arrayPop m => exact read_variant arrayPop (read_lossless m) rfl fun _ => rfl
    | hasIndexedProperty m =>
      exact read_variant hasIndexedProperty (read_lossless m) rfl fun _ => rfl
    | getIndexedPropertyStorage m =>
      exact read_variant getIndexedPropertyStorage (read_lossless m) rfl fun _ => rfl
    | stringCharAt m => exact read_variant stringCharAt (read_lossless m) rfl fun _ => rfl
    | stringCharCodeAt m => exact read_variant stringCharCodeAt (read_lossless m) rfl fun _ => rfl
    | getById i => exact read_variant getById (read_fits h) rfl fun _ => rfl
    | putById i => exact read_variant putById (read_fits h) rfl fun _ => rfl
    | putByIdDirect i => exact read_variant putByIdDirect (read_fits h) rfl fun _ => rfl
    | callVarargs d => exact read_variant callVarargs (read_fits h) rfl fun _ => rfl
    | constructVarargs d => exact read_variant constructVarargs (read_fits h) rfl fun _ => rfl
    | callForwardVarargs d => exact read_variant callForwardVarargs (read_fits h) rfl fun _ => rfl
    | loadVarargs d => exact read_variant loadVarargs (read_fits h) rfl fun _ => rfl
    | forwardVarargs d => exact read_variant forwardVarargs (read_fits h) rfl fun _ => rfl
    | throwReferenceError i => exact read_variant throwReferenceError (read_fits h) rfl fun _ => rfl
    | jump t => exact read_variant jump (read_fits h) rfl fun _ => rfl
    | branch d => exact read_variant branch (read_fits h) rfl fun _ => rfl
    | switch d => exact read_variant switch (read_fits h) rfl fun _ => rfl
    | _ => exact read_plain rfl

end Op

end SpecJit
