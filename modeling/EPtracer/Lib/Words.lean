import EPtracer.Lib.CString

/-!
# Words in memory

A word of the machine is loaded from its bytes least byte first.  A number on
the network has its most significant byte first, so a program loads the bytes as
a word and swaps them.  `toNat_be16toh_load16` and `toNat_be32toh_load32` say
that the result is the number, and `be16_injective` and `be32_injective` that
the bytes can be told from it.
-/

namespace CText

/-! ## Loads and stores -/

/-- A `uint16_t` in memory. -/
def load16 (b : Buf 2) : UInt16 :=
  (ptr b.bytes 0).toUInt16 ||| (ptr b.bytes 1).toUInt16 <<< 8

/-- A `uint32_t` in memory. -/
def load32 (b : Buf 4) : UInt32 :=
  (ptr b.bytes 0).toUInt32 ||| (ptr b.bytes 1).toUInt32 <<< 8 |||
    (ptr b.bytes 2).toUInt32 <<< 16 ||| (ptr b.bytes 3).toUInt32 <<< 24

/-- `be16toh`, on a little-endian machine. -/
def be16toh (v : UInt16) : UInt16 := v <<< 8 ||| v >>> 8

/-- `be32toh`, on a little-endian machine. -/
def be32toh (v : UInt32) : UInt32 :=
  let mask : UInt32 := 0xff00
  v <<< 24 ||| (v &&& mask) <<< 8 ||| (v >>> 8 &&& mask) ||| v >>> 24

/-- The bytes of a `uint32_t`. -/
def store32 (v : UInt32) : Buf 4 :=
  ⟨[v.toUInt8, (v >>> 8).toUInt8, (v >>> 16).toUInt8, (v >>> 24).toUInt8], rfl⟩

/-! ## Numbers in network order -/

/-- The number in network order at an offset. -/
def be16 (b : Bytes) (i : Nat) : Nat := (ptr b i).toNat * 256 + (ptr b (i + 1)).toNat

/-- The number in network order at an offset. -/
def be32 (b : Bytes) (i : Nat) : Nat := be16 b i * 2 ^ 16 + be16 b (i + 2)

/-! ## What a load gives -/

/-- A byte that is shifted inside a word keeps its bits. -/
theorem toNat_byte_shiftLeft (c : UInt8) {k : UInt32} (hk : k.toNat ≤ 24) :
    (c.toUInt32 <<< k).toNat = c.toNat <<< k.toNat := by
  have hlt : c.toNat * 2 ^ k.toNat < 2 ^ 8 * 2 ^ 24 :=
    Nat.mul_lt_mul_of_lt_of_le c.toNat_lt (Nat.pow_le_pow_right (by decide) hk) (by decide)
  rw [UInt32.toNat_shiftLeft, UInt8.toNat_toUInt32, Nat.mod_eq_of_lt (by omega : k.toNat < 32),
    Nat.shiftLeft_eq]
  exact Nat.mod_eq_of_lt hlt

theorem toNat_load16 (b : Buf 2) :
    (load16 b).toNat = (ptr b.bytes 0).toNat + (ptr b.bytes 1).toNat * 2 ^ 8 := by
  have h0 := (ptr b.bytes 0).toNat_lt
  have h1 := (ptr b.bytes 1).toNat_lt
  have hshift : ((ptr b.bytes 1).toUInt16 <<< 8).toNat = (ptr b.bytes 1).toNat <<< 8 := by
    simp [UInt16.toNat_shiftLeft, Nat.shiftLeft_eq]
    omega
  rw [load16, UInt16.toNat_or, hshift, UInt8.toNat_toUInt16, Nat.or_comm,
    ← Nat.shiftLeft_add_eq_or_of_lt h0, Nat.shiftLeft_eq, Nat.add_comm]

theorem toNat_be16toh_load16 (b : Buf 2) : (be16toh (load16 b)).toNat = be16 b.bytes 0 := by
  have h0 := (ptr b.bytes 0).toNat_lt
  have h1 := (ptr b.bytes 1).toNat_lt
  have hload := toNat_load16 b
  have hhigh : (load16 b <<< 8).toNat = (ptr b.bytes 0).toNat <<< 8 := by
    simp [UInt16.toNat_shiftLeft, Nat.shiftLeft_eq, hload]
    omega
  have hlow : (load16 b >>> 8).toNat = (ptr b.bytes 1).toNat := by
    simp [UInt16.toNat_shiftRight, Nat.shiftRight_eq_div_pow, hload]
    omega
  rw [be16toh, UInt16.toNat_or, hhigh, hlow, ← Nat.shiftLeft_add_eq_or_of_lt h1,
    Nat.shiftLeft_eq]
  rfl

/-- The bits of the mask of `be32toh`. -/
theorem and_ff00 (x : Nat) : x &&& 0xff00 = (x / 2 ^ 8 % 2 ^ 8) <<< 8 := by
  have hmask : 0xff00 = (2 ^ 8 - 1) <<< 8 := rfl
  apply Nat.eq_of_testBit_eq
  intro i
  rw [hmask, Nat.testBit_and, Nat.testBit_shiftLeft, Nat.testBit_shiftLeft,
    Nat.testBit_two_pow_sub_one, Nat.testBit_mod_two_pow, ← Nat.shiftRight_eq_div_pow,
    Nat.testBit_shiftRight]
  rcases Nat.lt_or_ge i 8 with hi | hi
  · simp [Nat.not_le.mpr hi]
  · rw [Nat.add_sub_cancel' hi]
    simp [hi, Bool.and_comm]

theorem toNat_load32 (b : Buf 4) :
    (load32 b).toNat = (ptr b.bytes 0).toNat + (ptr b.bytes 1).toNat * 2 ^ 8 +
      (ptr b.bytes 2).toNat * 2 ^ 16 + (ptr b.bytes 3).toNat * 2 ^ 24 := by
  have h0 := (ptr b.bytes 0).toNat_lt
  have h1 := (ptr b.bytes 1).toNat_lt
  have h2 := (ptr b.bytes 2).toNat_lt
  have h3 := (ptr b.bytes 3).toNat_lt
  have hs1 : ((ptr b.bytes 1).toUInt32 <<< 8).toNat = (ptr b.bytes 1).toNat <<< 8 :=
    toNat_byte_shiftLeft _ (by decide)
  have hs2 : ((ptr b.bytes 2).toUInt32 <<< 16).toNat = (ptr b.bytes 2).toNat <<< 16 :=
    toNat_byte_shiftLeft _ (by decide)
  have hs3 : ((ptr b.bytes 3).toUInt32 <<< 24).toNat = (ptr b.bytes 3).toNat <<< 24 :=
    toNat_byte_shiftLeft _ (by decide)
  have h01 : (ptr b.bytes 1).toNat <<< 8 + (ptr b.bytes 0).toNat < 2 ^ 16 := by
    rw [Nat.shiftLeft_eq]
    omega
  have h012 : (ptr b.bytes 2).toNat <<< 16 +
      ((ptr b.bytes 1).toNat <<< 8 + (ptr b.bytes 0).toNat) < 2 ^ 24 := by
    simp only [Nat.shiftLeft_eq]
    omega
  rw [load32, UInt32.toNat_or, UInt32.toNat_or, UInt32.toNat_or, hs1, hs2, hs3,
    UInt8.toNat_toUInt32, Nat.or_comm (ptr b.bytes 0).toNat,
    ← Nat.shiftLeft_add_eq_or_of_lt h0, Nat.or_comm _ ((ptr b.bytes 2).toNat <<< 16),
    ← Nat.shiftLeft_add_eq_or_of_lt h01, Nat.or_comm _ ((ptr b.bytes 3).toNat <<< 24),
    ← Nat.shiftLeft_add_eq_or_of_lt h012]
  simp only [Nat.shiftLeft_eq]
  omega

theorem toNat_be32toh_load32 (b : Buf 4) : (be32toh (load32 b)).toNat = be32 b.bytes 0 := by
  have h0 := (ptr b.bytes 0).toNat_lt
  have h1 := (ptr b.bytes 1).toNat_lt
  have h2 := (ptr b.bytes 2).toNat_lt
  have h3 := (ptr b.bytes 3).toNat_lt
  have hload := toNat_load32 b
  have hb0 : (load32 b <<< 24).toNat = (ptr b.bytes 0).toNat <<< 24 := by
    simp [UInt32.toNat_shiftLeft, Nat.shiftLeft_eq, hload]
    omega
  have hb1 : ((load32 b &&& 0xff00) <<< 8).toNat = (ptr b.bytes 1).toNat <<< 16 := by
    simp [UInt32.toNat_shiftLeft, UInt32.toNat_and, and_ff00, Nat.shiftLeft_eq, hload]
    omega
  have hb2 : (load32 b >>> 8 &&& 0xff00).toNat = (ptr b.bytes 2).toNat <<< 8 := by
    simp [UInt32.toNat_shiftRight, UInt32.toNat_and, and_ff00, Nat.shiftLeft_eq,
      Nat.shiftRight_eq_div_pow, hload]
    omega
  have hb3 : (load32 b >>> 24).toNat = (ptr b.bytes 3).toNat := by
    simp [UInt32.toNat_shiftRight, Nat.shiftRight_eq_div_pow, hload]
    omega
  have hlow : (ptr b.bytes 1).toNat <<< 16 < 2 ^ 24 := by
    rw [Nat.shiftLeft_eq]
    omega
  have hlow' : (ptr b.bytes 2).toNat <<< 8 < 2 ^ 16 := by
    rw [Nat.shiftLeft_eq]
    omega
  have hhigh : (ptr b.bytes 0).toNat <<< 24 + (ptr b.bytes 1).toNat <<< 16 =
      ((ptr b.bytes 0).toNat * 2 ^ 8 + (ptr b.bytes 1).toNat) <<< 16 := by
    simp only [Nat.shiftLeft_eq]
    omega
  have hhigh' : ((ptr b.bytes 0).toNat * 2 ^ 8 + (ptr b.bytes 1).toNat) <<< 16 +
      (ptr b.bytes 2).toNat <<< 8 =
        (((ptr b.bytes 0).toNat * 2 ^ 8 + (ptr b.bytes 1).toNat) * 2 ^ 8 +
          (ptr b.bytes 2).toNat) <<< 8 := by
    simp only [Nat.shiftLeft_eq]
    omega
  rw [be32toh, UInt32.toNat_or, UInt32.toNat_or, UInt32.toNat_or, hb0, hb1, hb2, hb3,
    ← Nat.shiftLeft_add_eq_or_of_lt hlow, hhigh, ← Nat.shiftLeft_add_eq_or_of_lt hlow', hhigh',
    ← Nat.shiftLeft_add_eq_or_of_lt h3]
  have hbe : be32 b.bytes 0 = ((ptr b.bytes 0).toNat * 256 + (ptr b.bytes 1).toNat) * 2 ^ 16 +
      ((ptr b.bytes 2).toNat * 256 + (ptr b.bytes 3).toNat) := rfl
  rw [hbe]
  simp only [Nat.shiftLeft_eq]
  omega

theorem load32_store32 (v : UInt32) : load32 (store32 v) = v := by
  have hlt := v.toNat_lt
  have h0 : (ptr (store32 v).bytes 0).toNat = v.toNat % 2 ^ 8 := rfl
  have h1 : (ptr (store32 v).bytes 1).toNat = v.toNat / 2 ^ 8 % 2 ^ 8 := by
    simp [store32, ptr, Nat.shiftRight_eq_div_pow]
  have h2 : (ptr (store32 v).bytes 2).toNat = v.toNat / 2 ^ 16 % 2 ^ 8 := by
    simp [store32, ptr, Nat.shiftRight_eq_div_pow]
  have h3 : (ptr (store32 v).bytes 3).toNat = v.toNat / 2 ^ 24 % 2 ^ 8 := by
    simp [store32, ptr, Nat.shiftRight_eq_div_pow]
  rw [← UInt32.toNat_inj, toNat_load32, h0, h1, h2, h3]
  omega

/-! ## Numbers and their bytes -/

theorem ptr_take_drop {b : Bytes} {i n k : Nat} (h : k < n) :
    ptr ((b.drop i).take n) k = ptr b (i + k) := by
  simp [ptr, List.getD, h]

theorem be16_take_drop (b : Bytes) (i : Nat) :
    be16 ((b.drop i).take 2) 0 = be16 b i := by
  rw [be16, be16, ptr_take_drop (by decide), ptr_take_drop (by decide)]
  rfl

theorem be32_take_drop (b : Bytes) (i : Nat) :
    be32 ((b.drop i).take 4) 0 = be32 b i := by
  simp only [be32, be16, Nat.zero_add]
  rw [ptr_take_drop (by decide), ptr_take_drop (by decide), ptr_take_drop (by decide),
    ptr_take_drop (by decide)]
  rfl

theorem eq_of_ptr {a b : Bytes} (hlen : a.length = b.length)
    (h : ∀ i < b.length, ptr a i = ptr b i) : a = b := by
  refine List.ext_getElem hlen fun i ha hb => ?_
  have hbyte := h i hb
  simpa [ptr, List.getD, ha, hb] using hbyte

theorem be16_injective {a b : Bytes} (ha : a.length = 2) (hb : b.length = 2)
    (h : be16 a 0 = be16 b 0) : a = b := by
  have ha1 := (ptr a 1).toNat_lt
  have hb1 := (ptr b 1).toNat_lt
  have hnum : (ptr a 0).toNat * 256 + (ptr a 1).toNat =
      (ptr b 0).toNat * 256 + (ptr b 1).toNat := h
  refine eq_of_ptr (ha.trans hb.symm) fun i hi => UInt8.toNat_inj.mp ?_
  obtain rfl | rfl : i = 0 ∨ i = 1 := by omega
  · omega
  · omega

theorem be32_injective {a b : Bytes} (ha : a.length = 4) (hb : b.length = 4)
    (h : be32 a 0 = be32 b 0) : a = b := by
  have ha1 := (ptr a 1).toNat_lt
  have ha2 := (ptr a 2).toNat_lt
  have ha3 := (ptr a 3).toNat_lt
  have hb1 := (ptr b 1).toNat_lt
  have hb2 := (ptr b 2).toNat_lt
  have hb3 := (ptr b 3).toNat_lt
  have hnum : ((ptr a 0).toNat * 256 + (ptr a 1).toNat) * 2 ^ 16 +
      ((ptr a 2).toNat * 256 + (ptr a 3).toNat) =
        ((ptr b 0).toNat * 256 + (ptr b 1).toNat) * 2 ^ 16 +
          ((ptr b 2).toNat * 256 + (ptr b 3).toNat) := h
  refine eq_of_ptr (ha.trans hb.symm) fun i hi => UInt8.toNat_inj.mp ?_
  obtain rfl | rfl | rfl | rfl : i = 0 ∨ i = 1 ∨ i = 2 ∨ i = 3 := by omega
  · omega
  · omega
  · omega
  · omega

end CText
