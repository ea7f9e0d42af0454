import SpecJit.Graph.Basic
import SpecJit.Layout

/-!
# Inline caches

Property accesses and calls that the compiler does not resolve become sites that the runtime
patches. The table lists them with the room each one needs.
-/

namespace SpecJit

/-- Name of a site. -/
structure SiteId where
  index : Nat
deriving DecidableEq, Hashable, Ord, Inhabited, Repr

instance : Encode SiteId := ⟨fun n => encode n.index⟩
instance : Decode SiteId := ⟨fun j => (decode j).map SiteId.mk⟩

/-- What a site does. -/
inductive InlineCacheKind where
  | getById
  | putById
  | putByIdDirect
  | hasProperty
  | call
  | construct
  | callVarargs
  | constructVarargs
  | callForwardVarargs
deriving DecidableEq, Hashable, Inhabited, Repr

namespace InlineCacheKind

def all : List InlineCacheKind :=
  [.getById, .putById, .putByIdDirect, .hasProperty, .call, .construct, .callVarargs,
    .constructVarargs, .callForwardVarargs]

def name : InlineCacheKind → String
  | .getById => "GetById"
  | .putById => "PutById"
  | .putByIdDirect => "PutByIdDirect"
  | .hasProperty => "In"
  | .call => "Call"
  | .construct => "Construct"
  | .callVarargs => "CallVarargs"
  | .constructVarargs => "ConstructVarargs"
  | .callForwardVarargs => "CallForwardVarargs"

/-- The bytes of code that the site takes. -/
def sizeBytes : InlineCacheKind → Nat
  | .getById | .hasProperty => 48
  | .putById | .putByIdDirect => 56
  | .call | .construct => 64
  | .callVarargs | .constructVarargs | .callForwardVarargs => 80

def isCall : InlineCacheKind → Bool
  | .call | .construct | .callVarargs | .constructVarargs | .callForwardVarargs => true
  | _ => false

instance : Encode InlineCacheKind := ⟨fun k => .str k.name⟩
instance : Decode InlineCacheKind := ⟨Json.enum? all name⟩

end InlineCacheKind

/-- A site that the runtime patches. -/
structure InlineCacheSite where
  id : SiteId
  kind : InlineCacheKind
  origin : CodeOrigin
  identifier : Option IdentifierIndex
  argumentCount : Nat
  sizeBytes : Nat
deriving DecidableEq, Inhabited, Repr

instance : Encode InlineCacheSite where
  encode s := .obj [("id", encode s.id), ("kind", encode s.kind), ("origin", encode s.origin),
    ("identifier", encode s.identifier), ("argument_count", encode s.argumentCount),
    ("size_bytes", encode s.sizeBytes)]

/-- The sites of a function. -/
structure InlineCacheTable where
  sites : Array InlineCacheSite := #[]
  /-- frame slots that the longest spread call needs -/
  varargsOutgoingSlots : Nat := 0
deriving DecidableEq, Inhabited, Repr

instance : Encode InlineCacheTable where
  encode t :=
    .obj [("sites", encode t.sites), ("varargs_outgoing_slots", encode t.varargsOutgoingSlots)]

namespace InlineCacheTable

/-- Adds a site. -/
def push (t : InlineCacheTable) (kind : InlineCacheKind) (origin : CodeOrigin)
    (identifier : Option IdentifierIndex) (argumentCount : Nat) : SiteId × InlineCacheTable :=
  let id : SiteId := ⟨t.sites.size⟩
  let site : InlineCacheSite :=
    { id, kind, origin, identifier, argumentCount, sizeBytes := kind.sizeBytes }
  (id, { t with sites := t.sites.push site })

def site? (t : InlineCacheTable) (id : SiteId) : Option InlineCacheSite := t.sites[id.index]?

end InlineCacheTable

/-- The frame slots that a spread call needs. -/
def Op.outgoingSlots? : Op → Option Nat
  | .callVarargs d | .constructVarargs d | .callForwardVarargs d =>
    if 0 < d.limit then some (d.limit + Frame.headerSlots) else none
  | _ => none

/-- The frame slots that the longest spread call of the graph needs. -/
def Graph.varargsOutgoingSlots (g : Graph) : Except Fault Nat := do
  let needs ← (g.nodes.toList.filterMap (·.op.outgoingSlots?)).mapM fun n => Fault.checkU32 n
  return needs.foldl max 0

end SpecJit
