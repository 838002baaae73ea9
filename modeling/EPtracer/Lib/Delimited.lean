import Mathlib.Data.List.Basic

/-!
# Delimited text

A text that is made of fields and delimiters can be taken apart again if each
field tells where it ends.  There are three ways for it to do so here.

* The delimiter is an element the field does not contain
  (`append_delimiter_inj`).
* The number of delimiters after the field is known (`append_count_inj`).  The
  field itself may contain more of them.
* The delimiter is a word the field does not contain, and the word does not
  overlap itself, because it repeats its first element nowhere
  (`append_word_inj`).

The lemmas compare two texts and conclude that their fields are the same, which
is what the injectivity of a printer comes down to.  All three look at the
overhang of one field over the other (`append_overhang`).
-/

namespace CText

variable {α : Type}

/-- Where two splits of a text differ, one first part hangs over the other. -/
theorem append_overhang {a b a' b' : List α} (h : a ++ b = a' ++ b') :
    (a = a' ∧ b = b') ∨ (∃ x c, a' = a ++ x :: c ∧ b = x :: c ++ b') ∨
      (∃ x c, a = a' ++ x :: c ∧ b' = x :: c ++ b) := by
  rcases List.append_eq_append_iff.mp h with ⟨c, ha, hb⟩ | ⟨c, ha, hb⟩
  · cases c with
    | nil => exact .inl ⟨by simpa using ha.symm, by simpa using hb⟩
    | cons x c => exact .inr (.inl ⟨x, c, ha, hb⟩)
  · cases c with
    | nil => exact .inl ⟨by simpa using ha, by simpa using hb.symm⟩
    | cons x c => exact .inr (.inr ⟨x, c, ha, hb⟩)

theorem append_delimiter_inj {q : α} {a b a' b' : List α} (ha : q ∉ a) (ha' : q ∉ a')
    (h : a ++ q :: b = a' ++ q :: b') : a = a' ∧ b = b' := by
  rcases append_overhang h with ⟨hfields, hrest⟩ | ⟨x, c, hover, hq⟩ | ⟨x, c, hover, hq⟩
  · exact ⟨hfields, List.tail_eq_of_cons_eq hrest⟩
  · obtain rfl := (List.cons.inj hq).1
    exact absurd (by simp [hover]) ha'
  · obtain rfl := (List.cons.inj hq).1
    exact absurd (by simp [hover]) ha

/-- A delimiter with as many of them behind it in both texts. -/
theorem append_count_inj [DecidableEq α] {q : α} {a b a' b' : List α}
    (hcount : b.count q = b'.count q) (h : a ++ q :: b = a' ++ q :: b') : a = a' ∧ b = b' := by
  rcases append_overhang h with ⟨hfields, hrest⟩ | ⟨x, c, -, hq⟩ | ⟨x, c, -, hq⟩
  · exact ⟨hfields, List.tail_eq_of_cons_eq hrest⟩
  · have hb := congrArg (List.count q) (List.cons.inj hq).2
    simp only [List.append_eq, List.count_append, List.count_cons_self] at hb
    omega
  · have hb := congrArg (List.count q) (List.cons.inj hq).2
    simp only [List.append_eq, List.count_append, List.count_cons_self] at hb
    omega

/-- A word that repeats its first element nowhere does not overlap itself. -/
theorem infix_of_overhang {q x : α} {w b b' c : List α} (hw : q ∉ w)
    (h : q :: w ++ b = x :: c ++ (q :: w ++ b')) : (q :: w) <:+: x :: c := by
  rcases List.append_eq_append_iff.mp h with ⟨d, hd, -⟩ | ⟨d, hd, hb⟩
  · exact ⟨[], d, by simp [hd]⟩
  · cases d with
    | nil => exact ⟨[], [], by simp [hd]⟩
    | cons y d =>
        -- the second copy starts inside the first, so the first repeats `q`
        obtain rfl := (List.cons.inj hb).1
        obtain ⟨-, hw'⟩ := List.cons.inj hd
        exact absurd (by simp [hw']) hw

/-- A delimiting word that neither field contains. -/
theorem append_word_inj {q : α} {w a b a' b' : List α} (hw : q ∉ w)
    (ha : ¬ (q :: w) <:+: a) (ha' : ¬ (q :: w) <:+: a')
    (h : a ++ (q :: w ++ b) = a' ++ (q :: w ++ b')) : a = a' ∧ b = b' := by
  rcases append_overhang h with ⟨hfields, hrest⟩ | ⟨x, c, rfl, hq⟩ | ⟨x, c, rfl, hq⟩
  · exact ⟨hfields, List.append_cancel_left hrest⟩
  · exact absurd ((infix_of_overhang hw hq).trans (List.suffix_append a _).isInfix) ha'
  · exact absurd ((infix_of_overhang hw hq).trans (List.suffix_append a' _).isInfix) ha

end CText
