import SpecJit.Exit
import SpecJit.Helper
import SpecJit.InlineCache
import SpecJit.Report.Basic

/-!
# Reports on exit tables, layouts and helpers
-/

namespace SpecJit.Report

/-- An exit of a table. -/
def exit (t : ExitTable) (id : ExitId) : Json :=
  match t.exit? id with
  | none => .obj [("id", shown id), ("stackmap", .null)]
  | some e =>
    let value : Operand × ExitValue → Json := fun (v, x) =>
      .arr [shown v, shown x, encode x.isDead, encode x.argumentIndices]
    .obj [("id", shown id), ("kind", shown e.kind), ("profiles", encode e.kind.recordsValueProfile),
      ("stackmap", encode (t.stackmapLength? id)), ("roots", encode e.materializationRoots),
      ("values", list value e.values.toList), ("missing", shown (e.value (.loc 0xffffffff)))]

/-- A field of an object that exits build. -/
def materializationField (t : ExitTable) (id : MaterializationId) (location : PromotedLocation) :
    Json :=
  option (fun (m : Materialization) => .arr [encode (m.property? location), encode m.dependencies])
    (t.materialization? id)

/-- A table: some of its exits and of the fields of its objects, and what it takes from a slot of
each of the given formats. -/
def exitTable (t : ExitTable) (exits : List ExitId)
    (properties : List (MaterializationId × PromotedLocation)) (formats : List FlushFormat) :
    Json :=
  .obj [("exits", list (exit t) exits),
    ("properties", list (fun (id, l) => materializationField t id l) properties),
    ("formats", list (fun f => .arr [encode f.isLive, encode (ValueFormat.ofFlush? f)]) formats),
    ("len", nat t.exits.size), ("empty", encode t.exits.isEmpty), ("kinds", encode ExitKind.all),
    ("table", encode t)]

/-- Everything a layout says of the number `n`, taken as an index, a count or a size. -/
def layout (l : ObjectLayout) (n : Nat) : Except Fault Json := do
  let sizeClass := Context.sizeClass? n
  return .obj [("fields", list (fun (f : CellField) => .arr [.str f.name, .int (l.fieldOffset f)])
    CellField.all),
    ("tag", .int l.tagOffset), ("first_object_tag", nat l.firstObjectTag),
    ("property", .int (← l.propertyOffset ⟨n⟩)), ("closure", .int (← l.closureVarOffset n)),
    ("argument", .int (← l.directArgumentOffset n)), ("object", nat (← l.objectSize n)),
    ("preamble", nat (← ObjectLayout.butterflyPreamble n)),
    ("argument_slot", .int (← Frame.slot (.arg n))),
    ("local_slot", .int (← Frame.slot (.loc n))),
    ("argument_offset", .int (← Frame.offset (.arg n))),
    ("local_offset", .int (← Frame.offset (.loc n))), ("size_class", encode sizeClass),
    ("free_list", option (fun c => .int (Context.freeListOffset c)) sizeClass)]

/-- All helpers, and which ones are registered. -/
def helpers (registered : HelperSet) : Json :=
  let row (h : Helper) : Json := .arr [.str h.name, nat h.index, .str h.symbol, nat h.paramCount]
  .obj [("count", nat Helper.all.length), ("all", list row Helper.all),
    ("debug", .str registered.debug)]

/-- The sites of a table, those of some ids, and the room that spread calls need. -/
def inlineCaches (t : InlineCacheTable) (lookups : List SiteId) (outgoing : Option Nat) : Json :=
  let row (s : InlineCacheSite) : Json :=
    .arr [encode s.id, encode s.kind.isCall, nat s.kind.sizeBytes]
  .obj [("ids", list row t.sites.toList), ("lookup", list (fun id => encode (t.site? id)) lookups),
    ("len", nat t.sites.size), ("empty", encode t.sites.isEmpty), ("outgoing", encode outgoing),
    ("table", encode t)]

end SpecJit.Report
