import Mathlib.Data.List.Basic

/-!
# Order in a growing log

A system that logs its events grows the log at one end.  `Precedes p q l` says
that each event in `q` has an event in `p` before it.  It is kept when an event
is added that is not in `q`, or when there is an event in `p` already
(`Precedes.snoc`).  So an order of events follows from what the state knows at
the time the later one happens.
-/

namespace Trace

variable {α : Type}

/-- Each event in `q` comes after one in `p`. -/
def Precedes (p q : α → Prop) (l : List α) : Prop :=
  ∀ before e after, l = before ++ e :: after → q e → ∃ e' ∈ before, p e'

theorem Precedes.nil (p q : α → Prop) : Precedes p q [] := by
  intro before e after h
  simp at h

theorem Precedes.snoc {p q : α → Prop} {l : List α} (h : Precedes p q l) {e : α}
    (he : q e → ∃ e' ∈ l, p e') : Precedes p q (l ++ [e]) := by
  intro before x after heq hx
  rcases List.eq_nil_or_concat after with rfl | ⟨after, y, rfl⟩
  · obtain ⟨rfl, hxe⟩ := List.append_inj' heq rfl
    obtain rfl : e = x := by simpa using hxe
    exact he hx
  · have heq : l ++ [e] = (before ++ x :: after) ++ [y] := by simpa using heq
    exact h before x after (List.append_inj' heq rfl).1 hx

theorem forall_mem_snoc {p : α → Prop} {l : List α} (h : ∀ e ∈ l, p e) {e : α} (he : p e) :
    ∀ e' ∈ l ++ [e], p e' :=
  List.forall_mem_append.mpr ⟨h, List.forall_mem_singleton.mpr he⟩

/-- Each event is as `R` says, after the events before it. -/
def Each (R : List α → α → Prop) (l : List α) : Prop :=
  ∀ before e after, l = before ++ e :: after → R before e

theorem Each.nil (R : List α → α → Prop) : Each R [] := by
  intro before e after h
  simp at h

theorem Each.of_forall {R : List α → α → Prop} {l : List α}
    (h : ∀ e ∈ l, ∀ before, R before e) : Each R l := by
  rintro before e after rfl
  exact h e (by simp) before

theorem Each.snoc {R : List α → α → Prop} {l : List α} (h : Each R l) {e : α} (he : R l e) :
    Each R (l ++ [e]) := by
  intro before x after heq
  rcases List.eq_nil_or_concat after with rfl | ⟨after, y, rfl⟩
  · obtain ⟨rfl, hxe⟩ := List.append_inj' heq rfl
    obtain rfl : e = x := by simpa using hxe
    exact he
  · have heq : l ++ [e] = (before ++ x :: after) ++ [y] := by simpa using heq
    exact h before x after (List.append_inj' heq rfl).1

end Trace
