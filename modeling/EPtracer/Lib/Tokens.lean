import EPtracer.Lib.CString

/-!
# Tokens of a string

`strtok` takes a string apart in place.  A call skips delimiters, finds the end
of the token that follows, writes a NUL there and remembers the place after it,
from which the next call goes on.

`words` is what the calls amount to: the longest runs of bytes that are not
delimiters, in order.  `strtok_spec` says what one call does to the part of the
string that is left.  The memory is written as what is done, `a`, what is left,
`r`, and the NUL at the end.
-/

namespace CText

/-! ## The functions of `string.h` -/

/-- `strspn(s, delim)`, for the memory from `s` on. -/
def strspn (s delim : Bytes) : Nat := (s.takeWhile (· ∈ delim)).length

/-- `strcspn(s, delim)`.  It stops at the NUL as well. -/
def strcspn (s delim : Bytes) : Nat := (s.takeWhile fun c => c ≠ 0 ∧ c ∉ delim).length

/-- `strtok(s, delim)`, where pointers are offsets in `mem`: the token or NULL,
the memory after the call, and the pointer it saves.  With NULL for `s` the call
goes on from the saved pointer, so that is passed here. -/
def strtok (mem : Bytes) (s : Nat) (delim : Bytes) : Option Nat × Bytes × Nat :=
  let s := s + strspn (mem.drop s) delim
  if ptr mem s = 0 then (none, mem, s)
  else
    let stop := s + strcspn (mem.drop s) delim
    if ptr mem stop = 0 then (some s, mem, stop) else (some s, mem.set stop 0, stop + 1)

/-! ## Words -/

/-- The longest runs of bytes that are not delimiters. -/
def words (delim s : Bytes) : List Bytes := (s.splitOnP (· ∈ delim)).filter (· ≠ [])

variable {delim : Bytes}

@[simp] theorem words_nil : words delim [] = [] := by
  simp [words]

theorem words_cons_delim {c : UInt8} (hc : c ∈ delim) (s : Bytes) :
    words delim (c :: s) = words delim s := by
  simp [words, List.splitOnP_cons_eq_if_modifyHead, hc]

theorem words_append_delims {d : Bytes} (hd : ∀ c ∈ d, c ∈ delim) (s : Bytes) :
    words delim (d ++ s) = words delim s := by
  induction d with
  | nil => rfl
  | cons c d ih =>
      obtain ⟨hc, hd⟩ := List.forall_mem_cons.mp hd
      rw [List.cons_append, words_cons_delim hc, ih hd]

theorem words_of_run {w : Bytes} (hne : w ≠ []) (hw : ∀ c ∈ w, c ∉ delim) :
    words delim w = [w] := by
  rw [words, List.splitOnP_eq_singleton (by simpa using hw)]
  simp [hne]

theorem words_run_cons {w : Bytes} (hne : w ≠ []) (hw : ∀ c ∈ w, c ∉ delim) {e : UInt8}
    (he : e ∈ delim) (t : Bytes) : words delim (w ++ e :: t) = w :: words delim t := by
  rw [words, List.splitOnP_append_cons_of_forall_mem (by simpa using hw) e (by simpa using he)]
  simp [words, hne]

/-- A run ends with the string or at a delimiter. -/
theorem exists_run (delim r : Bytes) : ∃ w t, r = w ++ t ∧ (∀ c ∈ w, c ∉ delim) ∧
    (t = [] ∨ ∃ e t', t = e :: t' ∧ e ∈ delim) := by
  induction r with
  | nil => exact ⟨[], [], rfl, by simp, .inl rfl⟩
  | cons c r ih =>
      by_cases hc : c ∈ delim
      · exact ⟨[], c :: r, rfl, by simp, .inr ⟨c, r, rfl, hc⟩⟩
      · obtain ⟨w, t, rfl, hw, ht⟩ := ih
        exact ⟨c :: w, t, rfl, List.forall_mem_cons.mpr ⟨hc, hw⟩, ht⟩

/-- A string is all delimiters, or it has a first word. -/
theorem exists_first_word (delim r : Bytes) :
    (∀ c ∈ r, c ∈ delim) ∨ ∃ d w t, r = d ++ (w ++ t) ∧ (∀ c ∈ d, c ∈ delim) ∧ w ≠ [] ∧
      (∀ c ∈ w, c ∉ delim) ∧ (t = [] ∨ ∃ e t', t = e :: t' ∧ e ∈ delim) := by
  induction r with
  | nil => exact .inl (by simp)
  | cons c r ih =>
      by_cases hc : c ∈ delim
      · rcases ih with hall | ⟨d, w, t, rfl, hd, hne, hw, ht⟩
        · exact .inl (List.forall_mem_cons.mpr ⟨hc, hall⟩)
        · exact .inr ⟨c :: d, w, t, rfl, List.forall_mem_cons.mpr ⟨hc, hd⟩, hne, hw, ht⟩
      · obtain ⟨w, t, rfl, hw, ht⟩ := exists_run delim r
        exact .inr ⟨[], c :: w, t, rfl, by simp, List.cons_ne_nil c w,
          List.forall_mem_cons.mpr ⟨hc, hw⟩, ht⟩

theorem words_append_delim {e : UInt8} (he : e ∈ delim) (s : Bytes) :
    words delim (s ++ [e]) = words delim s := by
  rw [words, List.splitOnP_append_cons s [] (by simpa using he)]
  simp [words]

theorem words_eq_nil_iff (r : Bytes) : words delim r = [] ↔ ∀ c ∈ r, c ∈ delim := by
  constructor
  · intro hnil
    rcases exists_first_word delim r with hall | ⟨d, w, t, rfl, hd, hne, hw, ht⟩
    · exact hall
    · rw [words_append_delims hd] at hnil
      rcases ht with rfl | ⟨e, t', rfl, he⟩
      · rw [List.append_nil, words_of_run hne hw] at hnil
        cases hnil
      · rw [words_run_cons hne hw he] at hnil
        cases hnil
  · intro hall
    have hwords := words_append_delims hall []
    rwa [List.append_nil, words_nil] at hwords

/-- Every word but the last takes a delimiter. -/
theorem length_words_le (delim r : Bytes) : 2 * (words delim r).length ≤ r.length + 1 := by
  induction hn : r.length using Nat.strong_induction_on generalizing r with
  | _ n ih =>
      rcases exists_first_word delim r with hall | ⟨d, w, t, rfl, hd, hne, hw, ht⟩
      · simp [(words_eq_nil_iff r).mpr hall]
      · have hpos := List.length_pos_iff.mpr hne
        rw [words_append_delims hd]
        simp only [List.length_append] at hn
        rcases ht with rfl | ⟨e, t', rfl, he⟩
        · rw [List.append_nil, words_of_run hne hw]
          simp only [List.length_singleton, List.length_nil] at *
          omega
        · rw [words_run_cons hne hw he]
          simp only [List.length_cons] at *
          have := ih t'.length (by omega) t' rfl
          omega

/-! ## One call -/

theorem strspn_append {d s : Bytes} (hd : ∀ c ∈ d, c ∈ delim) {c : UInt8} (hc : c ∉ delim) :
    strspn (d ++ c :: s) delim = d.length := by
  rw [strspn, List.takeWhile_append_of_pos (by simpa using hd)]
  simp [hc]

theorem strcspn_append {w s : Bytes} (h0 : 0 ∉ w) (hw : ∀ c ∈ w, c ∉ delim) {c : UInt8}
    (hc : c = 0 ∨ c ∈ delim) : strcspn (w ++ c :: s) delim = w.length := by
  have hrun : ∀ x ∈ w, decide (x ≠ 0 ∧ x ∉ delim) = true := by
    intro x hx
    have hx0 : x ≠ 0 := fun h => h0 (h ▸ hx)
    simp [hx0, hw x hx]
  have hstop : ¬ (c ≠ 0 ∧ c ∉ delim) := by
    rintro ⟨hc0, hcd⟩
    exact hc.elim hc0 hcd
  rw [strcspn, List.takeWhile_append_of_pos hrun, List.takeWhile_cons_of_neg (by simpa using hstop)]
  simp

theorem ptr_append_cons (a : Bytes) (c : UInt8) (s : Bytes) : ptr (a ++ c :: s) a.length = c := by
  simp [ptr, List.getD]

/-- At the end of the string there is nothing left. -/
theorem strtok_at_end (a : Bytes) (hdelim : 0 ∉ delim) :
    strtok (a ++ [0]) a.length delim = (none, a ++ [0], a.length) := by
  have hspn : strspn ((a ++ [0]).drop a.length) delim = 0 := by
    rw [List.drop_left, strspn]
    simp [hdelim]
  have hend : ptr (a ++ [0]) a.length = 0 := ptr_append_cons a 0 []
  simp only [strtok, hspn, Nat.add_zero, hend, if_true]

/-- A call that finds a word ends it where it ends. -/
theorem strtok_word (a : Bytes) {d w : Bytes} (hd : ∀ c ∈ d, c ∈ delim) (hne : w ≠ [])
    (h0 : 0 ∉ w) (hw : ∀ c ∈ w, c ∉ delim) {e : UInt8} (he : e = 0 ∨ e ∈ delim) (s : Bytes) :
    strtok (a ++ (d ++ (w ++ e :: s))) a.length delim =
      if e = 0 then (some (a ++ d).length, a ++ (d ++ (w ++ e :: s)), (a ++ (d ++ w)).length)
      else (some (a ++ d).length, a ++ (d ++ (w ++ 0 :: s)), (a ++ (d ++ w)).length + 1) := by
  obtain ⟨c, w', rfl⟩ := List.exists_cons_of_ne_nil hne
  obtain ⟨hc, -⟩ := List.forall_mem_cons.mp hw
  have hc0 : c ≠ 0 := fun h => h0 (h ▸ List.mem_cons_self)
  have hstart : a.length + strspn ((a ++ (d ++ (c :: w' ++ e :: s))).drop a.length) delim =
      (a ++ d).length := by
    rw [List.drop_left, List.cons_append, strspn_append hd hc, List.length_append]
  have hmem : a ++ (d ++ (c :: w' ++ e :: s)) = (a ++ d) ++ (c :: w' ++ e :: s) := by
    rw [List.append_assoc]
  have hfirst : ptr (a ++ (d ++ (c :: w' ++ e :: s))) (a ++ d).length = c := by
    rw [hmem]
    exact ptr_append_cons (a ++ d) c (w' ++ e :: s)
  have hstop : (a ++ d).length +
      strcspn ((a ++ (d ++ (c :: w' ++ e :: s))).drop (a ++ d).length) delim =
        (a ++ (d ++ c :: w')).length := by
    rw [hmem, List.drop_left, strcspn_append h0 hw he, ← List.length_append, List.append_assoc]
  have hmem' : a ++ (d ++ (c :: w' ++ e :: s)) = (a ++ (d ++ c :: w')) ++ e :: s := by
    simp only [List.append_assoc]
  have hend : ptr (a ++ (d ++ (c :: w' ++ e :: s))) (a ++ (d ++ c :: w')).length = e := by
    rw [hmem']
    exact ptr_append_cons (a ++ (d ++ c :: w')) e s
  have hset : (a ++ (d ++ (c :: w' ++ e :: s))).set (a ++ (d ++ c :: w')).length 0 =
      a ++ (d ++ (c :: w' ++ 0 :: s)) := by
    rw [hmem', List.set_append_right _ _ (Nat.le_refl _), Nat.sub_self, List.set_cons_zero]
    simp only [List.append_assoc]
  simp only [strtok, hstart, hfirst, hc0, if_false, hstop, hend, hset]

/-- A call finds no word, or the last one, or one with more of the string after
it. -/
theorem strtok_spec (a : Bytes) {r : Bytes} (hdelim : 0 ∉ delim) (hr : 0 ∉ r) :
    (words delim r = [] ∧ ∃ s, strtok (a ++ (r ++ [0])) a.length delim =
      (none, a ++ (r ++ [0]), s)) ∨
    (∃ d w, r = d ++ w ∧ 0 ∉ w ∧ words delim r = [w] ∧
      strtok (a ++ (r ++ [0])) a.length delim =
        (some (a ++ d).length, a ++ (r ++ [0]), (a ++ r).length)) ∨
    ∃ d w t, 0 ∉ w ∧ 0 ∉ t ∧ t.length < r.length ∧ words delim r = w :: words delim t ∧
      strtok (a ++ (r ++ [0])) a.length delim =
        (some (a ++ d).length, (a ++ (d ++ (w ++ [0]))) ++ (t ++ [0]),
          (a ++ (d ++ (w ++ [0]))).length) := by
  rcases exists_first_word delim r with hall | ⟨d, w, t, rfl, hd, hne, hw, ht⟩
  · left
    refine ⟨(words_eq_nil_iff r).mpr hall, a.length + r.length, ?_⟩
    have hend : ptr (a ++ (r ++ [0])) (a.length + r.length) = 0 := by
      rw [← List.length_append, ← List.append_assoc]
      exact ptr_append_cons (a ++ r) 0 []
    simp only [strtok, List.drop_left, strspn_append hall hdelim, hend, if_true]
  · right
    have h0 : 0 ∉ w := fun h => hr (by simp [h])
    rw [words_append_delims hd]
    rcases ht with rfl | ⟨e, t, rfl, he⟩
    · left
      refine ⟨d, w, by simp, h0, by rw [List.append_nil, words_of_run hne hw], ?_⟩
      have hcall := strtok_word a hd hne h0 hw (.inl rfl) []
      simpa using hcall
    · right
      have he0 : e ≠ 0 := fun h => hr (by simp [h])
      refine ⟨d, w, t, h0, fun h => hr (by simp [h]), ?_, words_run_cons hne hw he t, ?_⟩
      · simp only [List.length_append, List.length_cons]
        omega
      · have hcall := strtok_word a hd hne h0 hw (.inr he) (t ++ [0])
        rw [if_neg he0] at hcall
        simpa [Nat.add_assoc] using hcall

end CText
