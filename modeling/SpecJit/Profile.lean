import SpecJit.Deopt
import SpecJit.Fault

/-!
# Profile of exits

How often compiled code left through which exit, and which values failed its checks there. Code that
left too often is to be compiled again, and the next compile does not repeat a speculation that an
`ExitProfile` knows to have failed. Counts of exits stop at the largest number of 32 bits, except
that a kind cannot be counted beyond it.
-/

namespace SpecJit

/-- The values seen at one exit: the latest of them in a ring, and the kinds of all. -/
structure ValueProfile where
  buckets : Array Word := #[]
  /-- where the ring is written next -/
  next : Nat := 0
  observed : SpecType := .none
deriving DecidableEq, Inhabited, Repr

namespace ValueProfile

/-- How many values are kept. -/
def capacity : Nat := 8

/-- The ring with one more value: at the end while there is room, then over the oldest one. -/
def put (v : ValueProfile) (w : Word) : Except Fault (Array Word) :=
  if v.buckets.size < capacity then .ok (v.buckets.push w)
  else if v.next < v.buckets.size then .ok (v.buckets.setIfInBounds v.next w)
  else .error .outOfRange

/-- Remembers a value. -/
def record (v : ValueProfile) (w : Word) : Except Fault ValueProfile := do
  let buckets ← v.put w
  if v.next + 1 < 0x10000000000000000 then
    return { buckets, next := (v.next + 1) % capacity,
             observed := v.observed.union (Value.specType w) }
  else throw .overflow

instance : Encode ValueProfile where
  encode v := .obj [("buckets", encode v.buckets), ("next", encode v.next),
    ("observed", encode v.observed)]

instance : Decode ValueProfile where
  decode j := do
    let f ← Json.fields? ["buckets", "next", "observed"] j
    let next : UInt64 ← f.get "next"
    return { buckets := ← f.get "buckets", next := next.toNat, observed := ← f.get "observed" }

end ValueProfile

namespace ExitProfile

/-- The largest count. -/
def maxCount : Nat := 0xffffffff

/-- One more, up to the largest count. -/
def bump (n : Nat) : Nat := min (n + 1) maxCount

end ExitProfile

/-- What is known about one exit. -/
structure SiteProfile where
  kind : ExitKind
  origin : CodeOrigin
  count : Nat := 0
  values : Option ValueProfile := none
deriving DecidableEq, Inhabited, Repr

namespace SiteProfile

/-- The site with one more exit of a kind, and the value that failed its check if the kind is one
that keeps values. -/
def record (s : SiteProfile) (kind : ExitKind) (observed : Option Word) :
    Except Fault SiteProfile := do
  let s := { s with count := ExitProfile.bump s.count }
  match observed.filter fun _ => kind.recordsValueProfile with
  | none => return s
  | some w => return { s with values := some (← (s.values.getD {}).record w) }

instance : Encode SiteProfile where
  encode s := .obj [("kind", encode s.kind), ("origin", encode s.origin), ("count", encode s.count),
    ("values", encode s.values)]

instance : Decode SiteProfile where
  decode j := do
    let f ← Json.fields? ["kind", "origin", "count", "values"] j
    return { kind := ← f.get "kind", origin := ← f.get "origin", count := ← f.get "count",
             values := ← f.opt "values" }

end SiteProfile

/-- The exits of one compiled function. -/
structure ExitProfile where
  /-- the number of exits after which the function is to be compiled again -/
  threshold : Nat
  total : Nat := 0
  /-- in the order of kinds -/
  perKind : List (ExitKind × Nat) := []
  /-- in the order of ids -/
  sites : List (ExitId × SiteProfile) := []
deriving DecidableEq, Inhabited, Repr

namespace ExitProfile

/-- No exits yet; a threshold of zero is one. -/
def withThreshold (threshold : Nat) : ExitProfile := { threshold := max threshold 1 }

/-- How many exits a function may take by default. -/
def defaultThreshold : Nat := 100

/-- No exits yet. -/
def start : ExitProfile := withThreshold defaultThreshold

/-- The place of a kind in the order of kinds. -/
def kindRank (kind : ExitKind) : Nat := ExitKind.all.idxOf kind

/-- Gives a key its value in a list that is ordered by `rank`. -/
def assign {κ α : Type} (rank : κ → Nat) (entries : List (κ × α)) (key : κ) (value : α) :
    List (κ × α) :=
  entries.filter (fun e => rank e.1 < rank key) ++ [(key, value)]
    ++ entries.filter fun e => rank key < rank e.1

variable (p : ExitProfile)

/-- How many exits of a kind were taken. -/
def count (kind : ExitKind) : Nat := (p.perKind.lookup kind).getD 0

/-- What is known about an exit that was taken. -/
def site? (id : ExitId) : Option SiteProfile := p.sites.lookup id

/-- The function is to be compiled again. -/
def shouldReoptimize : Bool := p.threshold ≤ p.total

/-- An exit of a kind that goes on at `origin` was taken. -/
def hasExitSite (origin : CodeOrigin) (kind : ExitKind) : Bool :=
  p.sites.any fun s => s.2.origin == origin && s.2.kind == kind

/-- One more exit of a kind. -/
def countKind (kind : ExitKind) : Except Fault (List (ExitKind × Nat)) :=
  if p.count kind < maxCount then .ok (assign kindRank p.perKind kind (p.count kind + 1))
  else .error .overflow

/-- Counts one exit; `observed` is the value that failed its check. -/
def record (id : ExitId) (kind : ExitKind) (origin : CodeOrigin) (observed : Option Word) :
    Except Fault ExitProfile := do
  let perKind ← p.countKind kind
  let site ← ((p.site? id).getD { kind, origin }).record kind observed
  return { p with total := bump p.total, perKind, sites := assign ExitId.index p.sites id site }

/-- Counts the exit that led to a frame. -/
def recordFrame (f : ResolvedFrame) : Except Fault ExitProfile :=
  p.record f.exit f.kind f.origin f.profiledValue

/-- Forgets the counts, after the function was compiled again; the exits are kept. -/
def resetCounts : ExitProfile :=
  { p with total := 0, perKind := [], sites := p.sites.map fun (id, s) => (id,
    { s with count := 0 }) }

instance : Encode ExitProfile where
  encode p := .obj [("threshold", encode p.threshold), ("total", encode p.total),
    ("per_kind", .obj (p.perKind.map fun (k, n) => (k.name, encode n))),
    ("sites", .obj (p.sites.map fun (id, s) => (toString id.index, encode s)))]

/-- Reads the members of an object as entries in the order of `rank`. -/
def entries? {κ α : Type} [Decode α] (rank : κ → Nat) (key? : String → Option κ) :
    Json → Option (List (κ × α))
  | .obj members =>
    members.foldlM (fun l (k, j) => do return assign rank l (← key? k) (← decode j)) []
  | _ => none

instance : Decode ExitProfile where
  decode j := do
    let f ← Json.fields? ["threshold", "total", "per_kind", "sites"] j
    let perKind : Json ← f.get "per_kind"
    let sites : Json ← f.get "sites"
    return {
      threshold := ← f.get "threshold"
      total := ← f.get "total"
      perKind := ← entries? kindRank (fun k => decode (.str k)) perKind
      sites := ← entries? ExitId.index (fun k => (Json.natKey? k).map ExitId.mk) sites }

end ExitProfile

end SpecJit
