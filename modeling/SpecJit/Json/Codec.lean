import SpecJit.Json.Basic

/-!
# Records and variants in JSON

Every type of the interchange format has an `Encode` and a `Decode` instance.

* A record is an object with one member per field. Members it does not know are skipped, a member
  it knows may occur once. An array with one item per field, in field order, is read as well.
* A variant without payload is its name; one with a payload is an object with the name as its only
  member.
* `Option` is the value or `null`.
-/

namespace SpecJit

/-- Types with a JSON form. -/
class Encode (α : Type) where
  encode : α → Json

/-- Types that can be read from JSON. -/
class Decode (α : Type) where
  decode : Json → Option α

export Encode (encode)
export Decode (decode)

namespace Json

/-! ## Leaves -/

/-- An integer in the half-open range from `lo` to `hi`. -/
def intIn? (lo hi : Int) : Json → Option Int
  | .int n => if lo ≤ n ∧ n < hi then some n else none
  | _ => none

/-- A natural number that `bits` bits hold. -/
def nat? (bits : Nat) (j : Json) : Option Nat := (intIn? 0 (1 <<< bits : Nat) j).map Int.toNat

/-- An index written as the key of a member: decimal digits without leading zeros, of 32 bits. The
digits stand in the text as they are, so a reader of such keys takes no object with escaped ones. -/
def natKey? (s : String) : Option Nat :=
  let digits := s.toList
  if digits.isEmpty || !digits.all Char.isDigit || (digits.length > 1 && digits.head? == some '0')
    then none
  else
    let n := digits.foldl (fun n c => 10 * n + (c.toNat - '0'.toNat)) 0
    if n < 0x100000000 then some n else none

end Json

instance : Encode Bool := ⟨Json.bool⟩
instance : Decode Bool := ⟨Json.asBool?⟩
instance : Encode String := ⟨Json.str⟩
instance : Decode String := ⟨Json.asStr?⟩
/-- Natural numbers of the format are indices and counts of 32 bits. -/
instance : Encode Nat := ⟨fun n => .int n⟩
instance : Decode Nat := ⟨Json.nat? 32⟩
instance : Encode UInt8 := ⟨fun w => .int w.toNat⟩
instance : Decode UInt8 := ⟨fun j => (Json.nat? 8 j).map UInt8.ofNat⟩
instance : Encode UInt16 := ⟨fun w => .int w.toNat⟩
instance : Decode UInt16 := ⟨fun j => (Json.nat? 16 j).map UInt16.ofNat⟩
instance : Encode UInt32 := ⟨fun w => .int w.toNat⟩
instance : Decode UInt32 := ⟨fun j => (Json.nat? 32 j).map UInt32.ofNat⟩
instance : Encode UInt64 := ⟨fun w => .int w.toNat⟩
instance : Decode UInt64 := ⟨fun j => (Json.nat? 64 j).map UInt64.ofNat⟩
instance : Encode Int32 := ⟨fun w => .int w.toInt⟩
instance : Decode Int32 := ⟨fun j => (Json.intIn? (-0x80000000) 0x80000000 j).map Int32.ofInt⟩
instance : Encode Int64 := ⟨fun w => .int w.toInt⟩
instance : Decode Int64 :=
  ⟨fun j => (Json.intIn? (-0x8000000000000000) 0x8000000000000000 j).map Int64.ofInt⟩

/-- A value is its own form. -/
instance : Encode Json := ⟨id⟩
instance : Decode Json := ⟨some⟩

instance {α : Type} [Encode α] : Encode (Option α) where
  encode
    | none => .null
    | some a => encode a

instance {α : Type} [Decode α] : Decode (Option α) where
  decode
    | .null => some none
    | j => (decode j).map some

instance {α : Type} [Encode α] : Encode (List α) := ⟨fun l => .arr (l.map encode)⟩

instance {α : Type} [Decode α] : Decode (List α) where
  decode
    | .arr items => items.mapM decode
    | _ => none

instance {α : Type} [Encode α] : Encode (Array α) := ⟨fun a => encode a.toList⟩
instance {α : Type} [Decode α] : Decode (Array α) :=
  ⟨fun j => (decode j : Option (List α)).map List.toArray⟩

instance {α β : Type} [Encode α] [Encode β] : Encode (α × β) :=
  ⟨fun p => .arr [encode p.1, encode p.2]⟩

instance {α β : Type} [Decode α] [Decode β] : Decode (α × β) where
  decode
    | .arr [a, b] => do return (← decode a, ← decode b)
    | _ => none

namespace Json

/-! ## Records -/

/-- The fields of a record being read. -/
inductive Fields where
  | named (members : List (String × Json))
  | positional (items : List (String × Json))

/-- Reads `j` as a record with the given fields. -/
def fields? (names : List String) : Json → Option Fields
  | .obj members | .objEscaped members =>
    let known := members.filter fun m => names.contains m.1
    if (known.map (·.1)).Nodup then some (.named known) else none
  | .arr items =>
    if items.length ≤ names.length then some (.positional (names.zip items)) else none
  | _ => none

namespace Fields

/-- A field that must be there. -/
def get {α : Type} [Decode α] (f : Fields) (name : String) : Option α :=
  match f with
  | .named members => (members.lookup name).bind decode
  | .positional items => (items.lookup name).bind decode

/-- An optional field: a missing member means `none`. -/
def opt {α : Type} [Decode α] (f : Fields) (name : String) : Option (Option α) :=
  match f with
  | .named members =>
    match members.lookup name with
    | some j => decode j
    | none => some none
  | .positional items => (items.lookup name).bind decode

/-- A field that may be left out. -/
def getD {α : Type} [Decode α] (f : Fields) (name : String) (default : α) : Option α :=
  match f with
  | .named members | .positional members =>
    match members.lookup name with
    | some j => decode j
    | none => some default

end Fields

/-! ## Variants -/

/-- A variant being read: its name and its payload. -/
structure Tagged where
  name : String
  payload : Option Json

def tagged? : Json → Option Tagged
  | .str s => some ⟨s, none⟩
  | .obj [(k, j)] | .objEscaped [(k, j)] => some ⟨k, some j⟩
  | _ => none

namespace Tagged

/-- No payload. -/
def unit? (t : Tagged) : Option Unit :=
  match t.payload with
  | none | some .null => some ()
  | _ => none

/-- A payload of one value. -/
def one? {α : Type} [Decode α] (t : Tagged) : Option α := t.payload.bind decode

end Tagged

/-- A variant with a payload. -/
def variant (name : String) (payload : Json) : Json := .obj [(name, payload)]

/-- Reads the name of a variant without payload and looks it up among `all`. -/
def enum? {α : Type} (all : List α) (name : α → String) (j : Json) : Option α := do
  let t ← tagged? j
  t.unit?
  all.find? fun a => name a == t.name

end Json

end SpecJit
