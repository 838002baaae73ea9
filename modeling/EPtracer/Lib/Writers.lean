import EPtracer.Lib.Lines

/-!
# Two writers of one text

Two threads write to one stream.  A call writes its chunk in one piece, and the
chunks of the two threads come in any order that keeps each thread's own
(`Interleaves`).  One of them writes whole lines.  Its lines start at the start
of a line in every such order exactly if the other one writes whole lines too,
chunk by chunk (`lines_kept_iff`).
-/

namespace CText

/-- The chunks of the first writer are on the left, those of the second on the
right. -/
def Interleaves {α β : Type} (as : List α) (bs : List β) (l : List (α ⊕ β)) : Prop :=
  l.filterMap Sum.getLeft? = as ∧ l.filterMap Sum.getRight? = bs

/-- The text both have written. -/
def written (l : List (Bytes ⊕ Bytes)) : Bytes := l.flatMap (Sum.elim id id)

/-- Each chunk on the right is written at the start of a line. -/
def LinesKept (l : List (Bytes ⊕ Bytes)) : Prop :=
  ∀ before b after, l = before ++ .inr b :: after → AtLineStart (written before)

theorem interleaves_append {α β : Type} {as as' : List α} {bs bs' : List β}
    {l l' : List (α ⊕ β)} (h : Interleaves as bs l) (h' : Interleaves as' bs' l') :
    Interleaves (as ++ as') (bs ++ bs') (l ++ l') := by
  obtain ⟨rfl, rfl⟩ := h
  obtain ⟨rfl, rfl⟩ := h'
  exact ⟨List.filterMap_append .., List.filterMap_append ..⟩

theorem interleaves_left {α β : Type} (as : List α) :
    Interleaves as ([] : List β) (as.map .inl) := by
  induction as with
  | nil => exact ⟨rfl, rfl⟩
  | cons a as ih => exact @interleaves_append α β [a] as [] [] [.inl a] _ ⟨rfl, rfl⟩ ih

theorem interleaves_right {α β : Type} (bs : List β) :
    Interleaves ([] : List α) bs (bs.map .inr) := by
  induction bs with
  | nil => exact ⟨rfl, rfl⟩
  | cons b bs ih => exact @interleaves_append α β [] [] [b] bs [.inr b] _ ⟨rfl, rfl⟩ ih

/-- Without lines there is none to be kept. -/
theorem linesKept_of_none {chunks : List Bytes} {l : List (Bytes ⊕ Bytes)}
    (h : Interleaves chunks [] l) : LinesKept l := by
  rintro before b after rfl
  have hmem : b ∈ (before ++ .inr b :: after).filterMap Sum.getRight? :=
    List.mem_filterMap.mpr ⟨.inr b, by simp, rfl⟩
  rw [h.2] at hmem
  exact absurd hmem List.not_mem_nil

/-- After chunks that end their lines, a line starts. -/
theorem atLineStart_written {l : List (Bytes ⊕ Bytes)}
    (h : ∀ c ∈ l, EndsLine (c.elim id id)) : AtLineStart (written l) := by
  rcases List.eq_nil_or_concat l with rfl | ⟨l, c, rfl⟩
  · exact .inl rfl
  · refine .inr ?_
    rw [written, List.concat_eq_append, List.flatMap_append, List.flatMap_singleton]
    exact (h c (by simp)).append _

/-- **Two writers.**  The lines of one are kept whole at their start, in every
order, exactly if each chunk of the other ends its line. -/
theorem lines_kept_iff {chunks lines : List Bytes} (hne : ∀ c ∈ chunks, c ≠ [])
    (hlines : ∀ b ∈ lines, EndsLine b) (hsome : lines ≠ []) :
    (∀ l, Interleaves chunks lines l → LinesKept l) ↔ ∀ c ∈ chunks, EndsLine c := by
  constructor
  · intro hall c hc
    -- the lines are written right after the chunk
    obtain ⟨before, after, rfl⟩ := List.append_of_mem hc
    obtain ⟨b, rest, rfl⟩ := List.exists_cons_of_ne_nil hsome
    have horder : Interleaves (before ++ c :: after) (b :: rest)
        ((before ++ [c]).map .inl ++ ((b :: rest).map .inr ++ after.map .inl)) := by
      have h := interleaves_append (interleaves_left (β := Bytes) (before ++ [c]))
        (interleaves_append (interleaves_right (α := Bytes) (b :: rest)) (interleaves_left after))
      simpa using h
    have hstart := hall _ horder ((before ++ [c]).map .inl) b (rest.map .inr ++ after.map .inl)
      (by simp)
    have htext : written ((before ++ [c]).map .inl) = before.flatten ++ c := by
      simp [written, List.flatMap_map]
    rw [htext] at hstart
    rcases hstart with hnil | hends
    · exact absurd (List.append_eq_nil_iff.mp hnil).2 (hne c hc)
    · exact (endsLine_append_iff _ (hne c hc)).mp hends
  · rintro hchunks l ⟨rfl, rfl⟩ before b after rfl
    refine atLineStart_written fun c hc => ?_
    cases c with
    | inl c => exact hchunks c (List.mem_filterMap.mpr ⟨.inl c, by simp [hc], rfl⟩)
    | inr c => exact hlines c (List.mem_filterMap.mpr ⟨.inr c, by simp [hc], rfl⟩)

end CText
