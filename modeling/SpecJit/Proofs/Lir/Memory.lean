import Mathlib.Algebra.BigOperators.Ring.Finset
import SpecJit.Lir.Memory

/-!
# Bytes of memory

Page and place tell all addresses apart (`address_ext`), so that a byte that is written is the one
that is read and no other (`byte_setByte`). A number of up to 8 bytes is made of its bytes
(`toNat_read`), and a store gives each byte that it covers its part of the word and keeps the others
(`toNat_byte_write`). Distances of addresses are words as well: the bytes from `a` on, also beyond
the last address, are those `x` with a small `x - a`.

What a store wrote is read back (`read_write_self`), and a number that shares no byte with it is
read as before (`read_write_apart`). All in all memory is a map from addresses to bytes, whatever
pages and words they are on (`memory_actsAsBytes`).
-/

namespace SpecJit.Lir

/-- An address is told by its page and its place there. -/
theorem address_ext {a x : Word} (hpage : pageOf a = pageOf x) (hplace : placeOf a = placeOf x) :
    a = x := by
  have hp := congrArg UInt64.toNat hpage
  have hl := congrArg Fin.val hplace
  simp only [pageOf, placeOf, UInt64.toNat_shiftRight, UInt64.toNat_and] at hp hl
  rw [show (12 : Word).toNat % 64 = 12 from rfl, Nat.shiftRight_eq_div_pow,
    Nat.shiftRight_eq_div_pow] at hp
  rw [show (0xfff : Word).toNat = 2 ^ 12 - 1 from rfl, Nat.and_two_pow_sub_one_eq_mod,
    Nat.and_two_pow_sub_one_eq_mod] at hl
  apply UInt64.toNat_inj.1
  omega

namespace Memory

variable {m m' : Memory} {a x w : Word} {n k : Nat}

/-! ## One byte -/

@[simp] theorem byte_empty (a : Word) : ({} : Memory).byte a = 0 := by simp [byte, page]

theorem byte_setByte (m : Memory) (a : Word) (b : UInt8) (x : Word) :
    (m.setByte a b).byte x = if a = x then b else m.byte x := by
  by_cases hpage : pageOf a = pageOf x
  · by_cases hplace : placeOf a = placeOf x
    · obtain rfl := address_ext hpage hplace
      simp [byte, setByte, page]
    · rw [if_neg fun h => hplace (congrArg placeOf h)]
      simp [byte, setByte, page, hpage, hplace, Std.TreeMap.getD_insert]
  · rw [if_neg fun h => hpage (congrArg pageOf h)]
    simp [byte, setByte, page, hpage, Std.TreeMap.getD_insert]

theorem sub_add_one (x a : Word) : x - (a + 1) = x - a - 1 := by
  rw [UInt64.sub_eq_add_neg, UInt64.sub_eq_add_neg, UInt64.sub_eq_add_neg, UInt64.neg_add,
    UInt64.sub_eq_add_neg, UInt64.add_assoc]

/-- From the next address on, all but the first byte are one byte nearer. -/
theorem toNat_sub_add_one (h : a ≠ x) : (x - (a + 1)).toNat + 1 = (x - a).toNat := by
  have hpos : (x - a).toNat ≠ 0 := fun hzero => h (by
    have hsub : x - a = 0 := UInt64.toNat_inj.1 hzero
    rw [← UInt64.sub_add_cancel x a, hsub, UInt64.zero_add])
  have hone : (1 : Word).toNat = 1 := rfl
  rw [sub_add_one, UInt64.toNat_sub_of_le _ _ (UInt64.le_iff_toNat_le.2 (by omega))]
  omega

/-! ## Storing numbers -/

/-- A byte behind or before those that are written is kept. -/
theorem byte_write_apart (h : n ≤ (x - a).toNat) : (m.write a n w).byte x = m.byte x := by
  induction n generalizing m a w with
  | zero => rfl
  | succ n ih =>
    have hne : a ≠ x := by
      rintro rfl
      simp at h
    have hnext := toNat_sub_add_one hne
    rw [write, ih (by omega), byte_setByte, if_neg hne]

/-- A store gives the bytes that it covers their parts of the word. -/
theorem toNat_byte_write (hn : n ≤ 2 ^ 64) : ((m.write a n w).byte x).toNat =
    if (x - a).toNat < n then w.toNat / 256 ^ (x - a).toNat % 256 else (m.byte x).toNat := by
  induction n generalizing m a w with
  | zero => rfl
  | succ n ih =>
    by_cases hne : a = x
    · subst hne
      rw [write, byte_write_apart (by rw [sub_add_one]; simp; omega), byte_setByte, if_pos rfl]
      simp
    · have hnext := toNat_sub_add_one hne
      have hshift : (w >>> 8).toNat = w.toNat / 256 := by
        rw [UInt64.toNat_shiftRight]
        exact Nat.shiftRight_eq_div_pow ..
      rw [write, ih (by omega), byte_setByte, if_neg hne, hshift, ← hnext, Nat.pow_succ',
        Nat.div_div_eq_div_mul]
      exact if_congr (by omega) rfl rfl

/-! ## Reading numbers -/

theorem read_congr (h : ∀ i < n, m'.byte (a + UInt64.ofNat i) = m.byte (a + UInt64.ofNat i)) :
    m'.read a n = m.read a n := by
  induction n generalizing a with
  | zero => rfl
  | succ n ih =>
    have hfirst : m'.byte a = m.byte a := by simpa using h 0 (by omega)
    rw [read, read, hfirst, ih fun i hi => ?_]
    have := h (i + 1) (by omega)
    rwa [UInt64.ofNat_add, UInt64.add_comm (UInt64.ofNat i), ← UInt64.add_assoc] at this

/-- One byte more stands below the rest, as long as the number fits a word. -/
theorem toNat_read_succ_of_lt (h : (m.read (a + 1) n).toNat < 2 ^ 56) :
    (m.read a (n + 1)).toNat = (m.byte a).toNat + 256 * (m.read (a + 1) n).toNat := by
  have hbyte := (m.byte a).toNat_lt
  rw [read, UInt64.toNat_or, UInt64.toNat_shiftLeft, UInt8.toNat_toUInt64,
    show (8 : Word).toNat % 64 = 8 from rfl, Nat.shiftLeft_eq, Nat.mod_eq_of_lt (by omega),
    Nat.or_comm, ← Nat.shiftLeft_eq, ← Nat.shiftLeft_add_eq_or_of_lt (by omega), Nat.shiftLeft_eq]
  omega

theorem read_lt (m : Memory) (a : Word) (h : n ≤ 8) : (m.read a n).toNat < 256 ^ n := by
  induction n generalizing a with
  | zero => simp [read]
  | succ n ih =>
    have hrest := ih (a + 1) (by omega)
    have hbyte := (m.byte a).toNat_lt
    have hle : 256 ^ n ≤ 256 ^ 7 := Nat.pow_le_pow_right (by omega) (by omega)
    rw [toNat_read_succ_of_lt (by omega), Nat.pow_succ]
    omega

theorem toNat_read_succ (h : n < 8) :
    (m.read a (n + 1)).toNat = (m.byte a).toNat + 256 * (m.read (a + 1) n).toNat :=
  toNat_read_succ_of_lt (Nat.lt_of_lt_of_le (read_lt m (a + 1) (Nat.le_of_lt h))
    (Nat.pow_le_pow_right (by omega) (Nat.le_of_lt_succ h) : 256 ^ n ≤ 256 ^ 7))

/-- A number is made of its bytes, the lowest first. -/
theorem toNat_read (h : n ≤ 8) :
    (m.read a n).toNat = ∑ i ∈ Finset.range n, (m.byte (a + UInt64.ofNat i)).toNat * 256 ^ i := by
  induction n generalizing a with
  | zero => rfl
  | succ n ih =>
    have hnext (i : Nat) : a + 1 + UInt64.ofNat i = a + UInt64.ofNat (i + 1) := by
      rw [UInt64.ofNat_add, UInt64.add_comm (UInt64.ofNat i), ← UInt64.add_assoc]
      rfl
    rw [toNat_read_succ h, ih (by omega), Finset.sum_range_succ', Finset.mul_sum, Nat.add_comm]
    congr 1
    · exact Finset.sum_congr rfl fun i _ => by
        rw [hnext, Nat.pow_succ, Nat.mul_comm 256, Nat.mul_assoc]
    · simp

theorem read_write_self (h : n ≤ 8) : ((m.write a n w).read a n).toNat = w.toNat % 256 ^ n := by
  induction n generalizing m a w with
  | zero => simp [read, Nat.mod_one]
  | succ n ih =>
    have hbyte : ((m.write a (n + 1) w).byte a).toNat = w.toNat % 256 := by
      rw [toNat_byte_write (by omega), if_pos (by simp)]
      simp
    have hrest : ((m.write a (n + 1) w).read (a + 1) n).toNat = w.toNat / 256 % 256 ^ n := by
      rw [write, ih (by omega), UInt64.toNat_shiftRight]
      exact congrArg (· % 256 ^ n) (Nat.shiftRight_eq_div_pow ..)
    rw [toNat_read_succ h, hbyte, hrest, Nat.pow_succ', Nat.mod_mul]

/-! ## Numbers that share no byte -/

/-- Two runs of bytes that share none. -/
structure Apart (a : Word) (n : Nat) (x : Word) (k : Nat) : Prop where
  before : n ≤ (x - a).toNat
  behind : k ≤ (a - x).toNat

theorem Apart.symm (h : Apart a n x k) : Apart x k a n := ⟨h.behind, h.before⟩

/-- A byte of one run is not in the other. -/
theorem Apart.byte (h : Apart a n x k) {i : Nat} (hi : i < k) :
    n ≤ (x + UInt64.ofNat i - a).toNat := by
  obtain ⟨hbefore, hbehind⟩ := h
  have hflip : (a - x).toNat + (x - a).toNat = 2 ^ 64 ∨ (a - x).toNat = 0 := by
    have := a.toNat_lt
    have := x.toNat_lt
    rw [UInt64.toNat_sub, UInt64.toNat_sub]
    omega
  have hi₀ : (UInt64.ofNat i).toNat = i := by
    have := (a - x).toNat_lt
    rw [UInt64.toNat_ofNat', Nat.mod_eq_of_lt (by omega)]
  have hsum : x + UInt64.ofNat i - a = x - a + UInt64.ofNat i := by
    rw [UInt64.sub_eq_add_neg, UInt64.sub_eq_add_neg, UInt64.add_assoc,
      UInt64.add_comm (UInt64.ofNat i), ← UInt64.add_assoc]
  rw [hsum, UInt64.toNat_add, hi₀]
  omega

/-- No byte was changed but in some runs of bytes. -/
def ChangedIn (m : Memory) (runs : List (Word × Nat)) (m' : Memory) : Prop :=
  ∀ x, (∀ r ∈ runs, r.2 ≤ (x - r.1).toNat) → m'.byte x = m.byte x

theorem changedIn_write (m : Memory) (a : Word) (n : Nat) (w : Word) :
    m.ChangedIn [(a, n)] (m.write a n w) :=
  fun _ h => byte_write_apart (h _ (List.mem_singleton_self _))

theorem ChangedIn.refl (runs : List (Word × Nat)) (m : Memory) : m.ChangedIn runs m :=
  fun _ _ => rfl

theorem ChangedIn.trans {runs : List (Word × Nat)} {m'' : Memory} (h : m.ChangedIn runs m')
    (h' : m'.ChangedIn runs m'') :
    m.ChangedIn runs m'' := fun x hx => (h' x hx).trans (h x hx)

theorem ChangedIn.widen {runs runs' : List (Word × Nat)} (h : m.ChangedIn runs m')
    (hruns : ∀ r ∈ runs, r ∈ runs') :
    m.ChangedIn runs' m' := fun x hx => h x fun r hr => hx r (hruns r hr)

/-- A number that shares no byte with what was changed is kept. -/
theorem ChangedIn.read {runs : List (Word × Nat)} (h : m.ChangedIn runs m')
    (hx : ∀ r ∈ runs, Apart r.1 r.2 x k) :
    m'.read x k = m.read x k :=
  read_congr fun _ hi => h _ fun r hr => (hx r hr).byte hi

/-- A number that lies behind or before what is written is kept. -/
theorem read_write_apart (h : Apart a n x k) : (m.write a n w).read x k = m.read x k :=
  (changedIn_write m a n w).read fun _ hr => by
    rw [List.mem_singleton.1 hr]
    exact h

end Memory

/-! ## Distances -/

theorem toUInt64_ofInt (k : Int) : (Int64.ofInt k).toUInt64 = UInt64.ofInt k := by
  rw [← UInt64.toBitVec_inj]
  apply BitVec.eq_of_toNat_eq
  simp only [UInt64.ofInt, Int64.toBitVec_toUInt64, Int64.toBitVec_ofInt, BitVec.toNat_ofInt,
    UInt64.toBitVec_ofNat', BitVec.toNat_ofNat]
  omega

theorem toNat_ofInt (k : Int) : (UInt64.ofInt k).toNat = (k % 2 ^ 64).toNat := by
  simp only [UInt64.ofInt, UInt64.toNat_ofNat']
  omega

/-- The address a number of bytes from another. -/
def displace (a : Word) (k : Int) : Word := a + UInt64.ofInt k

@[simp] theorem displace_displace (a : Word) (j k : Int) :
    displace (displace a j) k = displace a (j + k) := by
  rw [displace, displace, displace, UInt64.ofInt_add, UInt64.add_assoc]

theorem displace_sub (a : Word) (j k : Int) :
    displace a k - displace a j = UInt64.ofInt (k - j) := by
  have hsplit : UInt64.ofInt k = UInt64.ofInt (k - j) + UInt64.ofInt j := by
    rw [← UInt64.ofInt_add, Int.sub_add_cancel]
  rw [displace, displace, hsplit]
  grind

/-- Runs of bytes that are apart as seen from an address, which are not so far from each other that
they meet again. -/
theorem Memory.apart_displace (a : Word) {j k : Int} {n l : Nat} (h : j + n ≤ k ∨ k + l ≤ j)
    (hj : j + n < k + 2 ^ 64) (hk : k + l < j + 2 ^ 64) (hn : 0 < n) (hl : 0 < l) :
    Memory.Apart (displace a j) n (displace a k) l := by
  constructor <;> rw [displace_sub, toNat_ofInt] <;> omega

namespace Memory

variable {m : Memory} {a b x w : Word} {n k : Nat} {runs : List (Word × Nat)}

/-! ## The map from addresses to bytes -/

/-- No byte, counted from `a` around the last address, is one of those from `b` on. -/
def Disjoint (a : Word) (n : Nat) (b : Word) (k : Nat) : Prop :=
  ∀ i < n, ∀ j < k, a + UInt64.ofNat i ≠ b + UInt64.ofNat j

theorem Disjoint.far (h : Disjoint a n b k) {j : Nat} (hj : j < k) :
    n ≤ (b + UInt64.ofNat j - a).toNat := by
  by_contra hlt
  refine h _ (Nat.lt_of_not_le hlt) j hj ?_
  rw [UInt64.ofNat_toNat, UInt64.add_comm, UInt64.sub_add_cancel]

/-- What was changed is not in a number that no run of it shares a byte with. -/
theorem ChangedIn.read_disjoint {m' : Memory} (h : m.ChangedIn runs m')
    (hx : ∀ r ∈ runs, Disjoint r.1 r.2 b k) :
    m'.read b k = m.read b k :=
  read_congr fun _ hj => h _ fun r hr => (hx r hr).far hj

theorem changedIn_writeBytes (m : Memory) (a : Word) (bytes : List UInt8) :
    m.ChangedIn [(a, bytes.length)] (m.writeBytes a bytes) := by
  intro x h
  replace h : bytes.length ≤ (x - a).toNat := h _ (List.mem_singleton_self _)
  induction bytes generalizing m a with
  | nil => rfl
  | cons byte bytes ih =>
    have hne : a ≠ x := by
      rintro rfl
      simp at h
    have hnext := toNat_sub_add_one hne
    rw [List.length_cons] at h
    exact (ih (m.setByte a byte) (a + 1) (by omega)).trans (by rw [byte_setByte, if_neg hne])

/-- The memories there are: what stores have made of the one where all is zero, with the runs of
bytes they covered. -/
inductive Written : Memory → List (Word × Nat) → Prop
  | empty : Written {} []
  | write {m : Memory} {runs : List (Word × Nat)} (a : Word) (n : Nat) (w : Word) :
      Written m runs → Written (m.write a n w) ((a, n) :: runs)
  | writeBytes {m : Memory} {runs : List (Word × Nat)} (a : Word) (bytes : List UInt8) :
      Written m runs → Written (m.writeBytes a bytes) ((a, bytes.length) :: runs)

theorem Written.changedIn (h : m.Written runs) : ChangedIn {} runs m := by
  induction h with
  | empty => exact .refl _ _
  | write a n w _ ih =>
    exact (ih.widen (by simp_all)).trans ((changedIn_write _ a n w).widen (by simp))
  | writeBytes a bytes _ ih =>
    exact (ih.widen (by simp_all)).trans ((changedIn_writeBytes _ a bytes).widen (by simp))

@[simp] theorem read_empty (a : Word) (n : Nat) : ({} : Memory).read a n = 0 := by
  induction n generalizing a with
  | zero => rfl
  | succ n ih => simp [read, ih]

/-- Memory as a map from addresses to bytes, as two numbers in it see it, the first of which is
stored. -/
structure ActsAsBytes (m : Memory) (a : Word) (n : Nat) (w : Word) (b : Word) (k : Nat) : Prop where
  /-- A number is made of its bytes, the lowest first. -/
  made : (m.read a n).toNat = ∑ i ∈ Finset.range n, (m.byte (a + UInt64.ofNat i)).toNat * 256 ^ i
  /-- A store gives each byte that it covers its part of the word, and keeps the others. -/
  stored : ∀ x, ((m.write a n w).byte x).toNat =
    if (x - a).toNat < n then w.toNat / 256 ^ (x - a).toNat % 256 else (m.byte x).toNat
  /-- What was stored is read back, as far as it fits. -/
  readBack : ((m.write a n w).read a n).toNat = w.toNat % 2 ^ (8 * n)
  /-- A number without a byte of the one that was stored is as before. -/
  kept : Disjoint a n b k → (m.write a n w).read b k = m.read b k
  /-- A number without a byte that was ever stored is zero. -/
  unwritten : ∀ runs, m.Written runs → (∀ r ∈ runs, Disjoint r.1 r.2 b k) → m.read b k = 0

/-- Memory is a map from addresses to bytes, whatever pages the bytes are on and also around the
last address. -/
theorem memory_actsAsBytes (m : Memory) (a w b : Word) (k : Nat) (hn : n ≤ 8) :
    ActsAsBytes m a n w b k where
  made := toNat_read hn
  stored _ := toNat_byte_write (by omega)
  readBack := by rw [read_write_self hn, Nat.pow_mul]
  kept h := (changedIn_write m a n w).read_disjoint fun r hr => by
    rw [List.mem_singleton.1 hr]
    exact h
  unwritten _ hm h := (hm.changedIn.read_disjoint h).trans (read_empty b k)

/-- A word over the last address: its upper half stands at the first one. -/
theorem memory_actsAsBytes_around :
    8 ≤ 8 ∧ ActsAsBytes {} 0xfffffffffffffffc 8 0x1122334455667788 4 4 ∧
      (({} : Memory).write 0xfffffffffffffffc 8 0x1122334455667788).read 0 4 = 0x11223344 ∧
      Disjoint 0xfffffffffffffffc 8 4 4 :=
  ⟨by
    decide, memory_actsAsBytes {} 0xfffffffffffffffc 0x1122334455667788 4 4 (by decide), by
      decide +kernel,
    by unfold Disjoint; decide +kernel⟩

/-- A word over two pages. -/
example : (({} : Memory).write 0x1ffc 8 0x1122334455667788).read 0x2000 4 = 0x11223344 := by
  decide +kernel

end Memory

end SpecJit.Lir
