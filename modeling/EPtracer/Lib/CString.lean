import Mathlib.Algebra.Group.Nat.Defs
import Mathlib.Data.List.TakeWhile

/-!
# Byte memory and C strings

A C string is read out of memory that may hold more than the string.  So there
are three views here, and lemmas that connect them.

* `CStr` is the string itself: its bytes, none of them NUL.
* `Buf n` is a `char[n]`: exactly `n` bytes, terminated or not.
* `Ptr` is what a `const char *` gives a loop: a byte at every offset.

`cString` reads the string a region holds.  It is `none` where the region has
no NUL, since the reader then goes on past its end.  `cut` is the same reading
with a bound instead of a region: it stops at a NUL or at the bound.

`decimalValue` is the number a digit string denotes.  The digits are the ones
`Nat.toDigits` writes.
-/

namespace CText

/-- Byte memory, or the bytes of a text. -/
abbrev Bytes := List UInt8

/-- The bytes of an ASCII literal. -/
def ascii (s : String) : Bytes := s.toList.map fun c => UInt8.ofNat c.toNat

/-! ## Strings and buffers -/

/-- A C string without its terminator. -/
@[ext] structure CStr where
  bytes : Bytes
  /-- The terminator ends the string. -/
  noNul : 0 ∉ bytes
deriving DecidableEq

/-- A `char[n]`. -/
@[ext] structure Buf (n : Nat) where
  bytes : Bytes
  size : bytes.length = n
deriving DecidableEq

/-- An array of zeros. -/
def Buf.zero (n : Nat) : Buf n := ⟨List.replicate n 0, by simp⟩

/-- Copy bytes to the front of an array and leave the rest as it was.  Bytes
that do not fit are dropped. -/
def Buf.write {n : Nat} (b : Buf n) (src : Bytes) : Buf n :=
  ⟨(src ++ b.bytes.drop src.length).take n, by
    simp only [List.length_take, List.length_append, List.length_drop, b.size]
    omega⟩

/-- Store one byte.  A store past the end does nothing. -/
def Buf.set {n : Nat} (b : Buf n) (i : Nat) (v : UInt8) : Buf n :=
  ⟨b.bytes.set i v, by simp [b.size]⟩

theorem Buf.bytes_write {n : Nat} (b : Buf n) {src : Bytes} (h : src.length ≤ n) :
    (b.write src).bytes = src ++ b.bytes.drop src.length := by
  refine List.take_of_length_le ?_
  simp only [List.length_append, List.length_drop, b.size]
  omega

/-- Bytes that fill the array replace all of it. -/
theorem Buf.write_full {n : Nat} (b : Buf n) {src : Bytes} (h : src.length = n) :
    b.write src = ⟨src, h⟩ := by
  ext1
  rw [Buf.bytes_write b (Nat.le_of_eq h), List.drop_of_length_le (by rw [b.size, h]),
    List.append_nil]

theorem Buf.bytes_write_set {n : Nat} (b : Buf (n + 1)) {src : Bytes} (h : src.length = n) :
    ((b.write src).set n 0).bytes = src ++ [0] := by
  have hdrop : (b.bytes.drop n).length = 1 := by simp [b.size]
  obtain ⟨last, hlast⟩ := List.length_eq_one_iff.mp hdrop
  simp only [Buf.write, Buf.set, h, hlast]
  rw [List.take_of_length_le (by simp [h]), List.set_append_right _ _ (by omega)]
  simp [h]

/-- `strncpy(dst, src, n)`: the first `n` bytes of the string, and zeroes after
it when it is shorter.  A string of `n` bytes or more leaves no terminator. -/
def strncpy (n : Nat) (src : CStr) : Buf n :=
  ⟨(src.bytes ++ List.replicate n 0).take n, by simp⟩

/-! ## Reading a string -/

/-- The string a region holds: the bytes before its first NUL.  Without one the
reader leaves the region. -/
def cString (region : Bytes) : Option Bytes :=
  if 0 ∈ region then some (region.takeWhile (· ≠ 0)) else none

theorem cString_append_zero (b rest : Bytes) :
    cString (b ++ 0 :: rest) = some (b.takeWhile (· ≠ 0)) := by
  have hmem : (0 : UInt8) ∈ b ++ 0 :: rest := by simp
  have hread : (b ++ 0 :: rest).takeWhile (· ≠ 0) = b.takeWhile (· ≠ 0) := by
    induction b with
    | nil => simp
    | cons c b ih =>
        by_cases hc : c = 0
        · simp [hc]
        · simpa [hc] using ih (by simp)
  rw [cString, if_pos hmem, hread]

theorem zero_not_mem_takeWhile (b : Bytes) : (0 : UInt8) ∉ b.takeWhile (· ≠ 0) := by
  intro h
  simpa using List.mem_takeWhile_imp h

theorem cString_noNul {region s : Bytes} (h : cString region = some s) : 0 ∉ s := by
  unfold cString at h
  split at h
  next =>
    cases h
    exact zero_not_mem_takeWhile region
  next => cases h

theorem length_cString_lt {region s : Bytes} (h : cString region = some s) :
    s.length < region.length := by
  have hnoNul := cString_noNul h
  unfold cString at h
  split at h
  next hmem =>
    cases h
    have hpre := List.takeWhile_prefix (fun c : UInt8 => decide (c ≠ 0)) (l := region)
    rcases hpre.length_le.eq_or_lt with heq | hlt
    · rw [hpre.eq_of_length heq] at hnoNul
      exact absurd hmem hnoNul
    · exact hlt
  next => cases h

theorem takeWhile_of_noNul {b : Bytes} (h : 0 ∉ b) : b.takeWhile (· ≠ 0) = b := by
  rw [List.takeWhile_eq_self_iff]
  intro c hc
  simpa using fun h0 : c = 0 => h (h0 ▸ hc)

/-- A buffer terminates what `strncpy` puts there exactly if the string is shorter
than it. -/
theorem zero_mem_strncpy_iff {n : Nat} (s : CStr) :
    0 ∈ (strncpy n s).bytes ↔ s.bytes.length < n := by
  simp only [strncpy]
  constructor
  · intro hmem
    by_contra hlen
    rw [List.take_append_of_le_length (Nat.not_lt.mp hlen)] at hmem
    exact s.noNul (List.mem_of_mem_take hmem)
  · intro hlen
    obtain ⟨k, rfl⟩ := Nat.exists_eq_add_of_lt hlen
    have hsplit : s.bytes ++ List.replicate (s.bytes.length + k + 1) 0 =
        (s.bytes ++ [0]) ++ List.replicate (s.bytes.length + k) (0 : UInt8) := by
      simp [List.replicate_succ]
    rw [hsplit, List.take_append, List.take_of_length_le (by simp)]
    simp

theorem cString_strncpy {n : Nat} (s : CStr) (h : s.bytes.length < n) :
    cString (strncpy n s).bytes = some s.bytes := by
  have hmem := (zero_mem_strncpy_iff s).mpr h
  have hpos : ∀ c ∈ s.bytes, decide (c ≠ 0) = true := by
    intro c hc
    exact decide_eq_true fun h0 => s.noNul (h0 ▸ hc)
  rw [cString, if_pos hmem, Option.some_inj]
  simp only [strncpy]
  rw [List.take_append, List.take_of_length_le (Nat.le_of_lt h), List.take_replicate,
    List.takeWhile_append_of_pos hpos]
  simp

/-! ## Pointers and bounded reading -/

/-- What a pointer into byte memory gives: a byte at each offset. -/
abbrev Ptr := Nat → UInt8

/-- The pointer to the next byte. -/
def Ptr.next (p : Ptr) : Ptr := fun i => p (i + 1)

/-- The pointer to the first byte of a region.  Readers stay inside the region,
so the value past its end does not matter. -/
def ptr (region : Bytes) : Ptr := fun i => region.getD i 0

@[simp] theorem ptr_cons_zero (c : UInt8) (b : Bytes) : ptr (c :: b) 0 = c := rfl

@[simp] theorem ptr_cons_next (c : UInt8) (b : Bytes) : (ptr (c :: b)).next = ptr b := rfl

/-- The string at a pointer, cut at its first NUL or at `n` bytes. -/
def cut : Nat → Ptr → Bytes
  | 0, _ => []
  | n + 1, p => if p 0 = 0 then [] else p 0 :: cut n p.next

theorem cut_of_nul (n : Nat) {p : Ptr} (h : p 0 = 0) : cut (n + 1) p = [] := if_pos h

theorem cut_of_ne (n : Nat) {p : Ptr} (h : p 0 ≠ 0) : cut (n + 1) p = p 0 :: cut n p.next :=
  if_neg h

theorem headD_cut (n : Nat) (p : Ptr) : (cut (n + 1) p).headD 0 = p 0 := by
  rw [cut]
  split
  next hnul => exact hnul.symm
  next => rfl

/-- Strings that start with different bytes differ, even if one is empty. -/
theorem cut_ne_cut (n : Nat) {p q : Ptr} (h : p 0 ≠ q 0) : cut (n + 1) p ≠ cut (n + 1) q := by
  intro heq
  rw [← headD_cut n p, ← headD_cut n q, heq] at h
  exact h rfl

theorem cut_ptr : ∀ (n : Nat) (b : Bytes), n ≤ b.length →
    cut n (ptr b) = (b.take n).takeWhile (· ≠ 0)
  | 0, _, _ => by simp [cut]
  | n + 1, [], h => by simp at h
  | n + 1, c :: b, h => by
      have ih := cut_ptr n b (by simpa using h)
      by_cases hc : c = 0
      · simp [cut, hc]
      · simp [cut, hc, ih]

/-- A bounded reader recovers from `strncpy` the string it was given, with or
without a terminator, as long as the string fits the bound. -/
theorem cut_strncpy {n : Nat} (s : CStr) (h : s.bytes.length ≤ n) :
    cut n (ptr (strncpy n s).bytes) = s.bytes := by
  rw [cut_ptr n _ (by rw [(strncpy n s).size])]
  simp only [strncpy]
  rw [List.take_take, Nat.min_self, List.take_append, List.take_of_length_le h,
    List.take_replicate]
  rcases hk : min (n - s.bytes.length) n with _ | k
  · simpa using takeWhile_of_noNul s.noNul
  · have hread := cString_append_zero s.bytes (List.replicate k 0)
    rw [cString, if_pos (by simp), takeWhile_of_noNul s.noNul] at hread
    simpa [List.replicate_succ] using hread

/-! ## Decimal numerals -/

/-- `c >= '0' && c <= '9'`. -/
def isDigit (c : UInt8) : Bool := 48 ≤ c && c ≤ 57

theorem isDigit_iff (c : UInt8) : isDigit c = true ↔ 48 ≤ c.toNat ∧ c.toNat ≤ 57 := by
  simp [isDigit, UInt8.le_iff_toNat_le]

/-- The number a string of digits denotes, most significant digit first. -/
def decimalValue (ds : Bytes) : Nat := ds.foldl (fun v c => v * 10 + (c.toNat - 48)) 0

/-- The digits a text starts with. -/
def digitPrefix (b : Bytes) : Bytes := b.takeWhile isDigit

theorem digitPrefix_eq_self_iff (b : Bytes) : digitPrefix b = b ↔ ∀ c ∈ b, isDigit c = true :=
  List.takeWhile_eq_self_iff

end CText
