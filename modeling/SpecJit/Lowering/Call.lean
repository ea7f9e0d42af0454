import SpecJit.Lowering.Forms

/-!
# Code for inline caches and calls

A property access or call becomes a site that the runtime patches. Spread calls copy the spread
arguments to the end of the frame first, as many as their limit allows; with more, they leave.
-/

namespace SpecJit.Lowering

open Lir

/-! ## Sites -/

/-- Adds a site to the table. -/
def newSite (kind : InlineCacheKind) (identifier : Option IdentifierIndex) (count : Nat) :
    Lower SiteId := do
  let s ← get
  let (site, caches) := s.caches.push kind s.origin identifier count
  set { s with caches }
  return site

/-- Records what a site returned; a boolean is unboxed. -/
def setSiteResult (id : NodeId) (value : Reg) : Lower Unit := do
  if (← getNode id).result == .boolean then
    setResult id (← Emit.icmpImm .eq value (wordImm Value.trueWord))
  else setResult id value

def lowerGetById (id : NodeId) (node : Node) (identifier : IdentifierIndex) : Lower Unit := do
  let base ← asValue (← node.child 0)
  let site ← newSite .getById (some identifier) 0
  setSiteResult id (← Emit.patchpoint site [base])

def lowerPutById (node : Node) (kind : InlineCacheKind) (identifier : IdentifierIndex) :
    Lower Unit := do
  let base ← asValue (← node.child 0)
  let value ← asValue (← node.child 1)
  let site ← newSite kind (some identifier) 0
  let _ ← Emit.patchpoint site [base, value]

def lowerHasProperty (id : NodeId) (node : Node) : Lower Unit := do
  let base ← asValue (← node.child 0)
  let key ← asValue (← node.child 1)
  let site ← newSite .hasProperty none 0
  setSiteResult id (← Emit.patchpoint site [base, key])

def lowerCall (id : NodeId) (node : Node) (kind : InlineCacheKind) : Lower Unit := do
  let args ← node.children.mapM asValue
  let site ← newSite kind none (args.length - 1)
  setSiteResult id (← Emit.patchpoint site args)

/-! ## Spread arguments -/

/-- Leaves if more arguments are spread than there is room for. -/
def checkSpreadLimit (length : Reg) (limit : Nat) : Lower Unit := do
  speculate .varargsOverflow none (← Emit.icmpImm .ugt length limit)

/-- Leaves if the stack has no room for a frame with the arguments. -/
def checkStackRoom (length : Reg) : Lower Unit := do
  let slots ← Emit.binaryImm .add length (Frame.headerSlots + 1)
  let refused ← callHelper .checkStackForVarargs [slots]
  speculate .varargsOverflow none (← Emit.icmpImm .ne refused 0)

/-- The address of a variable of the frame. -/
def frameAddress (v : Operand) : Lower Reg := do
  let offset ← Frame.offset v
  Emit.binaryImm .add (← read).frame offset

/-- Where the arguments of a spread call are put: below the locals. -/
def outgoingArea : Lower Reg := do frameAddress (.loc (← read).graph.numLocals)

/-- Where arguments that stay in the frame are put. -/
def spreadDestination (start : Operand) : Lower Reg := do
  match start with
  | .loc _ => frameAddress start
  | .arg _ => crash (.spreadTarget start)

/-- The number of arguments of this frame from `offset` on, `this` not counted. -/
def forwardedLength (offset : Nat) : Lower Reg := do
  let count ← Emit.load32 (← read).frame (8 * Frame.argumentCountSlot)
  let count ← Emit.zeroExtend count
  let available ← Emit.binaryImm .add count (-1 - offset)
  let negative ← Emit.icmpImm .slt available 0
  let zero ← Emit.int64 0
  Emit.select negative zero available

/-- The number of arguments that the runtime finds in an object from `offset` on. -/
def spreadLength (source offset : Reg) : Lower Reg :=
  callHelper .sizeFrameForVarargs [source, offset]

/-- Stores the argument count, `this` counted. -/
def storeCount (slot : Operand) (length : Reg) : Lower Unit := do
  let count ← Emit.truncate length
  let count ← Emit.binaryImm .add count 1
  Emit.store .w32 count (← read).frame (← Frame.offset slot)

/-- Copies one argument of this frame if there are more than `i`; else `undefined` fills a place
that is needed. -/
def copyFrameArgument (dest length : Reg) (first : Int) (minimum i : Nat) : Lower Unit := do
  let present ← Emit.icmpImm .ugt length i
  let frame := (← read).frame
  let bytes ← Fault.checkI32 (8 * Offset.ofIndex i)
  let source ← Fault.checkI32 (first + bytes)
  if i < minimum then
    let value ← diamond .i64 present .normal (Emit.load64 frame source) (Emit.word Value.undefined)
    Emit.store64 value dest (-bytes)
  else
    when present .normal do
      let value ← Emit.load64 frame source
      Emit.store64 value dest (-bytes)

/-- Copies the arguments of this frame from `offset` on, into at most `slots` places. -/
def copyFrameArguments (dest : Reg) (offset : Nat) (length : Reg) (slots minimum : Nat) :
    Lower Unit := do
  let slot ← Fault.checkI32 (Frame.headerSlots + 1 + Offset.ofIndex offset)
  let first ← Fault.checkI32 (8 * slot)
  (List.range (max slots minimum)).forM (copyFrameArgument dest length first minimum)

/-- Fills the places that are needed and got no argument. -/
def fillUndefined (dest length : Reg) (minimum : Nat) : Lower Unit :=
  (List.range minimum).forM fun i => do
    let missing ← Emit.icmpImm .ule length i
    when missing .normal do
      let undefined ← Emit.word Value.undefined
      Emit.store64 undefined dest (← Fault.checkI32 (-8 * Offset.ofIndex i))

/-! ## Spread calls -/

def lowerCallVarargs (id : NodeId) (node : Node) (kind : InlineCacheKind) (data : VarargsData) :
    Lower Unit := do
  let callee ← asValue (← node.child 0)
  let this ← asValue (← node.child 1)
  let source ← asValue (← node.child 2)
  let offset ← Emit.int64 data.firstVarargOffset
  let length ← spreadLength source offset
  if 0 < data.limit then checkSpreadLimit length data.limit
  checkStackRoom length
  let area ← if 0 < data.limit then do
      let area ← outgoingArea
      let _ ← callHelper .loadVarargs [area, source, offset, length]
      pure area
    else pure source
  let site ← newSite kind none data.firstVarargOffset
  setSiteResult id (← Emit.patchpoint site [callee, this, area, length])

def lowerCallForwardVarargs (id : NodeId) (node : Node) (data : VarargsData) : Lower Unit := do
  let callee ← asValue (← node.child 0)
  let this ← asValue (← node.child 1)
  let length ← forwardedLength data.firstVarargOffset
  if 0 < data.limit then checkSpreadLimit length data.limit
  checkStackRoom length
  let area ← if 0 < data.limit then do
      let area ← outgoingArea
      copyFrameArguments area data.firstVarargOffset length data.limit 0
      pure area
    else pure (← read).frame
  let site ← newSite .callForwardVarargs none data.firstVarargOffset
  setSiteResult id (← Emit.patchpoint site [callee, this, area, length])

def lowerLoadVarargs (node : Node) (data : LoadVarargsData) : Lower Unit := do
  let source ← asValue (← node.child 0)
  let offset ← Emit.int64 data.offset
  let length ← spreadLength source offset
  checkSpreadLimit length data.limit
  storeCount data.count length
  let dest ← spreadDestination data.start
  let _ ← callHelper .loadVarargs [dest, source, offset, length]
  fillUndefined dest length data.mandatoryMinimum

def lowerForwardVarargs (data : LoadVarargsData) : Lower Unit := do
  let length ← forwardedLength data.offset
  checkSpreadLimit length data.limit
  storeCount data.count length
  let dest ← spreadDestination data.start
  copyFrameArguments dest data.offset length data.limit data.mandatoryMinimum

end SpecJit.Lowering
