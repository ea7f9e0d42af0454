import SpecJit.Fault
import SpecJit.Value
import Std.Data.TreeMap

/-!
# Memory

Memory is a total map from 64-bit addresses to bytes that starts out as zero everywhere. It is kept
in pages, each of which is there once one of its bytes was written. Words are stored with their low
byte first, and addresses wrap around.
-/

namespace SpecJit.Lir

/-- The number of bytes of a page. -/
def pageSize : Nat := 4096

/-- A page: the bytes that were written; all others are zero. -/
abbrev Page := Std.TreeMap (Fin pageSize) UInt8

/-- The number of the page of an address. -/
def pageOf (a : Word) : Word := a >>> 12

/-- The place of an address in its page. -/
def placeOf (a : Word) : Fin pageSize := ⟨(a &&& 0xfff).toNat, by
  rw [UInt64.toNat_and]
  exact Nat.lt_of_le_of_lt Nat.and_le_right (by decide)⟩

/-- Memory: the pages in which something was written. -/
structure Memory where
  pages : Std.TreeMap Word Page := {}
deriving Inhabited

namespace Memory

def page (m : Memory) (number : Word) : Page := m.pages.getD number {}

def byte (m : Memory) (a : Word) : UInt8 := (m.page (pageOf a)).getD (placeOf a) 0

def setByte (m : Memory) (a : Word) (b : UInt8) : Memory :=
  ⟨m.pages.insert (pageOf a) ((m.page (pageOf a)).insert (placeOf a) b)⟩

/-- The number in the `n` bytes from `a` on, for `n` at most 8. -/
def read (m : Memory) : (a : Word) → (n : Nat) → Word
  | _, 0 => 0
  | a, n + 1 => (m.byte a).toUInt64 ||| (m.read (a + 1) n <<< 8)

/-- Stores the low `n` bytes of `w` from `a` on. -/
def write (m : Memory) : (a : Word) → (n : Nat) → (w : Word) → Memory
  | _, 0, _ => m
  | a, n + 1, w => (m.setByte a w.toUInt8).write (a + 1) n (w >>> 8)

/-- Stores a list of bytes. -/
def writeBytes (m : Memory) (a : Word) (bytes : List UInt8) : Memory :=
  (bytes.foldl (fun (m, a) b => (m.setByte a b, a + 1)) (m, a)).1

/-- The `n` bytes from `a` on. -/
def readBytes (m : Memory) (a : Word) (n : Nat) : List UInt8 :=
  (List.range n).map fun i => m.byte (a + UInt64.ofNat i)

/-- `read`, refusing numbers of more than 8 bytes. -/
def readNumber (m : Memory) (a : Word) (n : Nat) : Except Fault Word :=
  if n ≤ 8 then .ok (m.read a n) else .error .overflow

/-- `write`, refusing numbers of more than 8 bytes. -/
def writeNumber (m : Memory) (a : Word) (n : Nat) (w : Word) : Except Fault Memory :=
  if n ≤ 8 then .ok (m.write a n w) else .error .overflow

end Memory

end SpecJit.Lir
