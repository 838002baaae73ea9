import EPtracer.Target.Selection

/-!
# The comparison of names

`strEquals` counts down from its size, and the loop of `str_equals` counts up to
it: an `int` is compared with a `__u32`.  `strEqualsLoop` is that loop.  A size
below 2^31 keeps the counter from overflowing, and then the two agree
(`strEqualsLoop_eq`).

What they compute is the sign of `strncmp`, as a word: the unsigned order of the
two strings a bounded reader sees (`strEquals_eq_strncmpSign`).
-/

namespace EPtracer

open CText

/-- `str_equals(s1, s2, size)` from some turn of its loop on.  The first argument
bounds the number of turns.  It is `none` where that is too small, and where
`len` overflows. -/
def strEqualsLoop (size : UInt32) : Nat → Int32 → Ptr → Ptr → Option UInt32
  | 0, _, _, _ => none
  | fuel + 1, len, s1, s2 =>
      if len.toUInt32 < size then
        if s1 0 ≠ s2 0 then some (if s1 0 < s2 0 then -1 else 1)
        else if s1 0 = 0 then some 0
        else if len = Int32.maxValue then none
        else strEqualsLoop size fuel (len + 1) s1.next s2.next
      else some 0

/-- The loop ends, with this result. -/
def StrEqualsReturns (size : UInt32) (s1 s2 : Ptr) (r : UInt32) : Prop :=
  ∀ fuel, size.toNat < fuel → strEqualsLoop size fuel 0 s1 s2 = some r

/-- The sign of `strncmp(s1, s2, size)`, as a word. -/
def strncmpSign (size : Nat) (s1 s2 : Ptr) : UInt32 :=
  if cut size s1 = cut size s2 then 0 else if cut size s1 < cut size s2 then -1 else 1

/-- A result compares the strings that a reader bounded by `size` sees. -/
structure ComparesStrings (size : Nat) (s1 s2 : Ptr) (r : UInt32) : Prop where
  zero : r = 0 ↔ cut size s1 = cut size s2
  /-- The first difference, which no NUL comes before, decides. -/
  sign : r ≠ 0 → ∃ i < size, (∀ j < i, s1 j = s2 j ∧ s1 j ≠ 0) ∧ s1 i ≠ s2 i ∧
    r = if s1 i < s2 i then 0xffffffff else 1
  strncmp : r = strncmpSign size s1 s2

/-- Two pairs of buffers differ only at the bound and past it, or after a NUL
that both of a pair have. -/
def SameToRead (size : Nat) (s1 s2 t1 t2 : Ptr) : Prop :=
  ∀ i < size, (∀ j < i, ¬ (s1 j = 0 ∧ s2 j = 0)) → t1 i = s1 i ∧ t2 i = s2 i

/-! ## The counter -/

theorem toNat_toUInt32_ofNat {k : Nat} (hk : k < 2 ^ 31) :
    (Int32.ofNat k).toUInt32.toNat = k := by
  rw [Int32.toUInt32_ofNat', UInt32.toNat_ofNat', Nat.mod_eq_of_lt (by omega)]

theorem strEqualsLoop_eq {size : UInt32} (hsize : size.toNat < 2 ^ 31) (fuel k : Nat)
    (s1 s2 : Ptr) (hk : k ≤ size.toNat) (hfuel : size.toNat < fuel + k) :
    strEqualsLoop size fuel (Int32.ofNat k) s1 s2 = some (strEquals (size.toNat - k) s1 s2) := by
  induction fuel generalizing k s1 s2 with
  | zero => omega
  | succ fuel ih =>
      have hlen := toNat_toUInt32_ofNat (Nat.lt_of_le_of_lt hk hsize)
      rcases Nat.eq_or_lt_of_le hk with rfl | hlt
      · have hend : ¬ (Int32.ofNat size.toNat).toUInt32 < size := by
          rw [UInt32.lt_iff_toNat_lt, hlen]
          exact Nat.lt_irrefl _
        rw [strEqualsLoop, if_neg hend, Nat.sub_self, strEquals]
      · have hturn : (Int32.ofNat k).toUInt32 < size := by
          rwa [UInt32.lt_iff_toNat_lt, hlen]
        have hmax : Int32.ofNat k ≠ Int32.maxValue := by
          intro hmax
          rw [hmax] at hlen
          have hk' : 2147483647 = k := hlen
          omega
        obtain ⟨n, hn⟩ : ∃ n, size.toNat - k = n + 1 := ⟨size.toNat - k - 1, by omega⟩
        have hrest := ih (k + 1) s1.next s2.next hlt (by omega)
        rw [show size.toNat - (k + 1) = n by omega, Int32.ofNat_add] at hrest
        rw [strEqualsLoop, if_pos hturn, hn]
        rcases strEquals_step n s1 s2 with
          ⟨hdiff, hcall⟩ | ⟨hsame, hnul, hcall⟩ | ⟨hsame, hne, hcall⟩
        · rw [hcall, if_pos hdiff]
        · rw [hcall, if_neg (not_not_intro hsame), if_pos hnul]
        · rw [hcall, if_neg (not_not_intro hsame), if_neg hne, if_neg hmax]
          exact hrest

theorem strEqualsReturns_strEquals {size : UInt32} (hsize : size.toNat < 2 ^ 31) (s1 s2 : Ptr) :
    StrEqualsReturns size s1 s2 (strEquals size.toNat s1 s2) := by
  intro fuel hfuel
  have hloop := strEqualsLoop_eq hsize fuel 0 s1 s2 (Nat.zero_le _) hfuel
  exact hloop

/-! ## What is compared -/

/-- The first bytes decide if they differ. -/
theorem cut_lt_cut (size : Nat) {s1 s2 : Ptr} (h : s1 0 < s2 0) :
    cut (size + 1) s1 < cut (size + 1) s2 := by
  have hne : s2 0 ≠ 0 := fun hnul => UInt8.not_lt_zero (hnul ▸ h)
  rw [cut_of_ne size hne, cut]
  split
  next => exact List.nil_lt_cons _ _
  next => exact List.cons_lt_cons_iff.mpr (.inl h)

theorem strEquals_eq_strncmpSign : ∀ (size : Nat) (s1 s2 : Ptr),
    strEquals size s1 s2 = strncmpSign size s1 s2
  | 0, _, _ => by simp [strEquals, strncmpSign, cut]
  | size + 1, s1, s2 => by
      have ih := strEquals_eq_strncmpSign size s1.next s2.next
      rw [strncmpSign]
      rcases strEquals_step size s1 s2 with
        ⟨hdiff, hcall⟩ | ⟨hsame, hnul, hcall⟩ | ⟨hsame, hne, hcall⟩
      · rw [hcall, if_neg (cut_ne_cut size hdiff)]
        rcases UInt8.lt_or_lt_of_ne hdiff with hlt | hgt
        · rw [if_pos hlt, if_pos (cut_lt_cut size hlt)]
        · rw [if_neg (UInt8.lt_asymm hgt), if_neg (List.lt_asymm (cut_lt_cut size hgt))]
      · rw [hcall, cut_of_nul size hnul, cut_of_nul size (hsame ▸ hnul), if_pos rfl]
      · rw [hcall, ih, strncmpSign, cut_of_ne size hne, cut_of_ne size (hsame ▸ hne), hsame]
        simp only [List.cons.injEq, true_and, List.cons_lt_cons_iff, UInt8.lt_irrefl, false_or]

theorem strEquals_sign : ∀ (size : Nat) (s1 s2 : Ptr), strEquals size s1 s2 ≠ 0 →
    ∃ i < size, (∀ j < i, s1 j = s2 j ∧ s1 j ≠ 0) ∧ s1 i ≠ s2 i ∧
      strEquals size s1 s2 = if s1 i < s2 i then 0xffffffff else 1
  | 0, _, _, h => absurd rfl h
  | size + 1, s1, s2, h => by
      rcases strEquals_step size s1 s2 with
        ⟨hdiff, hcall⟩ | ⟨hsame, hnul, hcall⟩ | ⟨hsame, hne, hcall⟩
      · exact ⟨0, Nat.succ_pos size, fun j hj => absurd hj (Nat.not_lt_zero j), hdiff, hcall⟩
      · exact absurd hcall h
      · rw [hcall] at h ⊢
        obtain ⟨i, hi, hbefore, hdiff, hr⟩ := strEquals_sign size s1.next s2.next h
        refine ⟨i + 1, Nat.succ_lt_succ hi, fun j hj => ?_, hdiff, hr⟩
        cases j with
        | zero => exact ⟨hsame, hne⟩
        | succ j => exact hbefore j (Nat.lt_of_succ_lt_succ hj)

/-- Swapped arguments negate the result. -/
theorem strEquals_swap : ∀ (size : Nat) (s1 s2 : Ptr),
    strEquals size s2 s1 = -strEquals size s1 s2
  | 0, _, _ => by simp [strEquals]
  | size + 1, s1, s2 => by
      rw [strEquals]
      rcases strEquals_step size s1 s2 with
        ⟨hdiff, hcall⟩ | ⟨hsame, hnul, hcall⟩ | ⟨hsame, hne, hcall⟩
      · rw [hcall, if_pos hdiff.symm]
        rcases UInt8.lt_or_lt_of_ne hdiff with hlt | hgt
        · rw [if_pos hlt, if_neg (UInt8.lt_asymm hlt)]
          rfl
        · rw [if_pos hgt, if_neg (UInt8.lt_asymm hgt)]
      · rw [hcall, if_neg (not_not_intro hsame.symm), if_pos (hsame ▸ hnul)]
        rfl
      · rw [hcall, if_neg (not_not_intro hsame.symm), if_neg (hsame ▸ hne)]
        exact strEquals_swap size s1.next s2.next

theorem strEquals_congr : ∀ {size : Nat} {s1 s2 t1 t2 : Ptr}, SameToRead size s1 s2 t1 t2 →
    strEquals size t1 t2 = strEquals size s1 s2
  | 0, _, _, _, _, _ => rfl
  | size + 1, s1, s2, t1, t2, h => by
      obtain ⟨h1, h2⟩ := h 0 (Nat.succ_pos size) fun j hj => absurd hj (Nat.not_lt_zero j)
      rw [strEquals, h1, h2]
      rcases strEquals_step size s1 s2 with
        ⟨hdiff, hcall⟩ | ⟨hsame, hnul, hcall⟩ | ⟨hsame, hne, hcall⟩
      · rw [hcall, if_pos hdiff]
      · rw [hcall, if_neg (not_not_intro hsame), if_pos hnul]
      · rw [hcall, if_neg (not_not_intro hsame), if_neg hne]
        refine strEquals_congr fun i hi hbefore => ?_
        refine h (i + 1) (Nat.succ_lt_succ hi) fun j hj => ?_
        cases j with
        | zero => exact fun hzero => hne hzero.1
        | succ j => exact hbefore j (Nat.lt_of_succ_lt_succ hj)

theorem comparesStrings_strEquals (size : Nat) (s1 s2 : Ptr) :
    ComparesStrings size s1 s2 (strEquals size s1 s2) where
  zero := strEquals_eq_zero_iff size s1 s2
  sign := strEquals_sign size s1 s2
  strncmp := strEquals_eq_strncmpSign size s1 s2

/-- **A bounded comparison.**  For every size below 2^31 the loop ends, and
compares the strings in front of the first NULs and the bound.  Nothing behind
these has an influence, and swapped arguments negate the result. -/
theorem strEquals_compares (size : UInt32) (hsize : size.toNat < 2 ^ 31) (s1 s2 : Ptr) :
    ∃ r, StrEqualsReturns size s1 s2 r ∧ ComparesStrings size.toNat s1 s2 r ∧
      StrEqualsReturns size s2 s1 (-r) ∧
      ∀ t1 t2, SameToRead size.toNat s1 s2 t1 t2 → StrEqualsReturns size t1 t2 r := by
  refine ⟨strEquals size.toNat s1 s2, strEqualsReturns_strEquals hsize s1 s2,
    comparesStrings_strEquals size.toNat s1 s2, ?_, fun t1 t2 hsame => ?_⟩
  · rw [← strEquals_swap]
    exact strEqualsReturns_strEquals hsize s2 s1
  · rw [← strEquals_congr hsame]
    exact strEqualsReturns_strEquals hsize t1 t2

/-- `sh` comes before `ssh`. -/
theorem strEquals_compares_sh :
    ∃ r, StrEqualsReturns 100 (ptr (ascii "sh")) (ptr (ascii "ssh")) r ∧
      ComparesStrings 100 (ptr (ascii "sh")) (ptr (ascii "ssh")) r ∧
      StrEqualsReturns 100 (ptr (ascii "ssh")) (ptr (ascii "sh")) (-r) ∧
      ∀ t1 t2, SameToRead 100 (ptr (ascii "sh")) (ptr (ascii "ssh")) t1 t2 →
        StrEqualsReturns 100 t1 t2 r :=
  strEquals_compares 100 (by decide) (ptr (ascii "sh")) (ptr (ascii "ssh"))

end EPtracer
