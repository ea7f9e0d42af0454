import SpecJit.Exit
import SpecJit.Value

/-!
# Pieces of reports

Reports show the objects of the library as JSON for tools that inspect them. Words are shown in
hexadecimal digits. Which NaN a computation yields is not part of what it means, so that reports of
results show every NaN alike.
-/

namespace SpecJit.Report

def word (w : Word) : Json := .str (hexText w)

/-- A boxed value, with every boxed NaN alike. -/
def boxed (w : Word) : Json :=
  if Value.isDouble w && (Value.unboxDouble w).isNaN then .str "0x7ff9000000000000" else word w

/-- The bits of a double, with every NaN alike. -/
def rawDouble (w : Word) : Json :=
  if Double.isNaN ⟨w⟩ then .str "0x7ff8000000000000" else word w

/-- A set of kinds, as bits and as text. -/
def specType (t : SpecType) : Json := .obj [("bits", encode t), ("text", .str t.text)]

/-- `null` in place of a missing value. -/
def option {α : Type} (f : α → Json) : Option α → Json
  | some a => f a
  | none => .null

def nat (n : Nat) : Json := .int n

def list {α : Type} (f : α → Json) (l : List α) : Json := .arr (l.map f)

def double (d : Double) : Json := word d.bits

/-- Text of something shown by its name. -/
def shown {α : Type} [ToString α] (a : α) : Json := .str (toString a)

end SpecJit.Report
