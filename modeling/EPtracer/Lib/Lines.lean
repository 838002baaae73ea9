import EPtracer.Lib.Printf

/-!
# Text in chunks

A program prints its text in chunks.  Chunks of known lengths are told apart in
what they are printed as (`flatMap_eq_iff`).  A chunk starts at the beginning of
a line if all the text before it ends with a newline.  So each chunk of some
text does, and the text ends a line, exactly if each chunk ends with a newline
itself (`lines_of_chunks_iff`).
-/

namespace CText

/-! ## Chunks of known lengths -/

theorem flatMap_eq_iff {α β : Type} {l : List α} {f g : α → List β}
    (hlen : ∀ x ∈ l, (f x).length = (g x).length) :
    l.flatMap f = l.flatMap g ↔ ∀ x ∈ l, f x = g x := by
  induction l with
  | nil => simp
  | cons x l ih =>
      simp only [List.forall_mem_cons] at hlen ⊢
      rw [List.flatMap_cons, List.flatMap_cons, ← ih hlen.2]
      constructor
      · exact fun h => List.append_inj h hlen.1
      · rintro ⟨hx, hl⟩
        rw [hx, hl]

/-- The indices of a list are those below its length. -/
theorem forall_mem_zipIdx_iff {α : Type} {l : List α} {p : Nat → Prop} :
    (∀ x ∈ l.zipIdx, p x.2) ↔ ∀ i < l.length, p i := by
  constructor
  · intro h i hi
    exact h (l[i], i) (List.mem_zipIdx_iff_getElem?.mpr (List.getElem?_eq_getElem hi))
  · intro h x hx
    have hget := List.mem_zipIdx_iff_getElem?.mp hx
    exact h x.2 (List.getElem?_eq_some_iff.mp hget).1

/-! ## Printed text -/

/-- What some calls print, one after the other. -/
def printed : List PrintfCall → Option Bytes
  | [] => some []
  | call :: calls => do
      let text ← format call.fmt call.args
      let rest ← printed calls
      some (text ++ rest)

theorem printed_append {a b : List PrintfCall} {s t : Bytes} (ha : printed a = some s)
    (hb : printed b = some t) : printed (a ++ b) = some (s ++ t) := by
  induction a generalizing s with
  | nil =>
      cases ha
      exact hb
  | cons call a ih =>
      simp only [printed, Option.bind_eq_bind, Option.bind_eq_some_iff, Option.some.injEq] at ha
      obtain ⟨text, htext, rest, hrest, rfl⟩ := ha
      rw [List.cons_append, printed, htext, ih hrest, List.append_assoc]
      rfl

theorem printed_flatMap {α : Type} {l : List α} {f : α → List PrintfCall} {t : α → Bytes}
    (h : ∀ x ∈ l, printed (f x) = some (t x)) :
    printed (l.flatMap f) = some (l.map t).flatten := by
  induction l with
  | nil => rfl
  | cons x l ih =>
      rw [List.forall_mem_cons] at h
      exact printed_append h.1 (ih h.2)

/-- What a call writes. -/
def callText (call : PrintfCall) : Option Bytes := format call.fmt call.args

/-- The calls write these texts, one each. -/
def Prints (calls : List PrintfCall) (texts : List Bytes) : Prop :=
  calls.map callText = texts.map some

theorem Prints.nil : Prints [] [] := rfl

theorem Prints.cons {call : PrintfCall} {calls : List PrintfCall} {text : Bytes}
    {texts : List Bytes} (h : callText call = some text) (hs : Prints calls texts) :
    Prints (call :: calls) (text :: texts) := by
  rw [Prints, List.map_cons, List.map_cons, h, hs]

theorem Prints.append {a b : List PrintfCall} {s t : List Bytes} (ha : Prints a s)
    (hb : Prints b t) : Prints (a ++ b) (s ++ t) := by
  rw [Prints, List.map_append, List.map_append, ha, hb]

theorem Prints.flatMap {α : Type} {l : List α} {f : α → List PrintfCall} {t : α → List Bytes}
    (h : ∀ x ∈ l, Prints (f x) (t x)) : Prints (l.flatMap f) (l.flatMap t) := by
  induction l with
  | nil => exact .nil
  | cons x l ih =>
      rw [List.forall_mem_cons] at h
      exact h.1.append (ih h.2)

/-- The calls tell what is written. -/
theorem Prints.texts_unique {calls : List PrintfCall} {s t : List Bytes} (hs : Prints calls s)
    (ht : Prints calls t) : s = t :=
  (List.map_inj_right fun _ _ => Option.some.inj).mp (hs.symm.trans ht)

theorem Prints.printed {calls : List PrintfCall} {texts : List Bytes} (h : Prints calls texts) :
    printed calls = some texts.flatten := by
  induction calls generalizing texts with
  | nil =>
      obtain rfl := List.map_eq_nil_iff.mp h.symm
      rfl
  | cons call calls ih =>
      obtain ⟨text, texts, rfl, htext, hrest⟩ := List.map_eq_cons_iff.mp h.symm
      have hcall : format call.fmt call.args = some text := htext.symm
      rw [CText.printed, hcall, ih hrest.symm]
      rfl

/-! ## Lines -/

/-- The text ends with a newline. -/
def EndsLine (b : Bytes) : Prop := b.getLast? = some 10

instance (b : Bytes) : Decidable (EndsLine b) := inferInstanceAs (Decidable (_ = _))

/-- What is printed after the text starts a line. -/
def AtLineStart (b : Bytes) : Prop := b = [] ∨ EndsLine b

theorem endsLine_append_iff (a : Bytes) {b : Bytes} (hb : b ≠ []) :
    EndsLine (a ++ b) ↔ EndsLine b := by
  rw [EndsLine, EndsLine, List.getLast?_append, List.getLast?_eq_some_getLast hb, Option.some_or]

theorem EndsLine.ne_nil {b : Bytes} (h : EndsLine b) : b ≠ [] := by
  rintro rfl
  cases h

theorem EndsLine.append {b : Bytes} (h : EndsLine b) (a : Bytes) : EndsLine (a ++ b) :=
  (endsLine_append_iff a h.ne_nil).mpr h

theorem charBytes_toDigits_ne_nil (b n : Nat) : charBytes (Nat.toDigits b n) ≠ [] := by
  intro h
  have hdigits := List.map_eq_nil_iff.mp h
  exact absurd (congrArg List.length hdigits) (Nat.ne_of_gt Nat.length_toDigits_pos)

theorem decimal_ne_nil (n : Nat) : decimal n ≠ [] := charBytes_toDigits_ne_nil 10 n

theorem hex_ne_nil (n : Nat) : hex n ≠ [] := charBytes_toDigits_ne_nil 16 n

theorem not_endsLine_append_decimal (a : Bytes) (n : Nat) : ¬ EndsLine (a ++ decimal n) := by
  rw [endsLine_append_iff a (decimal_ne_nil n)]
  intro h
  have hdigit := isDigit_of_mem_decimal (List.mem_of_getLast? h)
  exact absurd hdigit (by decide)

theorem flatten_take_succ {chunks : List Bytes} {i : Nat} (hi : i < chunks.length) :
    (chunks.take (i + 1)).flatten = (chunks.take i).flatten ++ chunks[i] := by
  rw [List.take_succ_eq_append_getElem hi, List.flatten_append, List.flatten_singleton]

/-- Each chunk starts a line, and the last one ends its line. -/
theorem lines_of_chunks_iff {chunks : List Bytes} (hne : ∀ c ∈ chunks, c ≠ []) :
    ((chunks ≠ [] → EndsLine chunks.flatten) ∧
      ∀ i < chunks.length, AtLineStart (chunks.take i).flatten) ↔
    ∀ c ∈ chunks, EndsLine c := by
  constructor
  · rintro ⟨hend, hstart⟩ c hc
    obtain ⟨i, hi, rfl⟩ := List.getElem_of_mem hc
    have hline : EndsLine (chunks.take (i + 1)).flatten := by
      rcases Nat.lt_or_eq_of_le (Nat.succ_le_of_lt hi) with hlt | heq
      · rcases hstart (i + 1) hlt with hnil | hline
        · rw [flatten_take_succ hi] at hnil
          exact absurd (List.append_eq_nil_iff.mp hnil).2 (hne _ hc)
        · exact hline
      · change i + 1 = chunks.length at heq
        rw [heq, List.take_length]
        exact hend (List.ne_nil_of_mem hc)
    rw [flatten_take_succ hi] at hline
    exact (endsLine_append_iff _ (hne _ hc)).mp hline
  · intro hall
    have hline : ∀ i < chunks.length, EndsLine (chunks.take (i + 1)).flatten := by
      intro i hi
      rw [flatten_take_succ hi]
      exact (hall _ (List.getElem_mem hi)).append _
    constructor
    · intro hchunks
      obtain ⟨k, hk⟩ := Nat.exists_eq_succ_of_ne_zero (List.length_pos_iff.mpr hchunks).ne'
      have hlast := hline k (by omega)
      rwa [List.take_of_length_le (by omega)] at hlast
    · intro i hi
      cases i with
      | zero => exact .inl rfl
      | succ i => exact .inr (hline i (Nat.lt_of_succ_lt hi))

end CText
