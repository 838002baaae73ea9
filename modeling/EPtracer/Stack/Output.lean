import EPtracer.Stack.Frames

/-!
# Lines of a stack

The text of a stack has an entry for each address.  A frame that was inlined
ends its line, wherever the function is from.  The frame of an address ends its
line only if the symbolizer knows no source file for it: the two formats with a
file have no newline.  Then the next frame goes on in the same line
(`line_structured_iff`).
-/

namespace EPtracer

open CText

/-- Each entry of a stack is printed from the start of a line, and the last one
ends its line. -/
def LineStructured (symbolizer : Symbolizer) (stack : List UInt64) (pid : Int32) : Prop :=
  ∃ entries : List Bytes,
    entries.map some = stack.zipIdx.map (fun entry =>
      (showEntry (symbolizer.symbolize stack pid) entry.1 entry.2).bind printed) ∧
    (showStackTrace symbolizer stack pid).bind printed = some entries.flatten ∧
    (stack ≠ [] → EndsLine entries.flatten) ∧
    ∀ i < stack.length, AtLineStart (entries.take i).flatten

/-! ## Frames -/

theorem ascii_ne_nil {s : String} (h : s ≠ "") : ascii s ≠ [] := by
  rw [ascii, ne_eq, List.map_eq_nil_iff, String.toList_eq_nil_iff]
  exact h

theorem Place.not_endsLine_text (place : Place) (a : Bytes) : ¬ EndsLine (a ++ place.text) := by
  rw [Place.text, ← List.append_assoc]
  exact not_endsLine_append_decimal _ _

/-- Each text of a frame writes something. -/
theorem Frame.ne_nil_of_mem_texts (frame : Frame) : ∀ text ∈ frame.texts, text ≠ [] := by
  cases frame with
  | noSymbol addr => simp [Frame.texts, ascii_ne_nil]
  | address inputAddr name addr offset place =>
      cases place with
      | none => simp [Frame.texts, ascii_ne_nil]
      | some place => simp [Frame.texts, ascii_ne_nil]
  | inlined name place =>
      cases place with
      | none => simp [Frame.texts, ascii_ne_nil]
      | some place => simp [Frame.texts, ascii_ne_nil]

theorem Frame.flatten_texts_ne_nil (frame : Frame) : frame.texts.flatten ≠ [] := by
  cases frame with
  | noSymbol addr => simp [Frame.texts, ascii_ne_nil]
  | address inputAddr name addr offset place => simp [Frame.texts, ascii_ne_nil]
  | inlined name place => simp [Frame.texts]

/-- The frame of an address ends its line if there is no place. -/
theorem Frame.address_endsLine_iff {inputAddr : UInt64} {name : CStr} {addr offset : UInt64}
    {place : Option Place} :
    EndsLine (Frame.address inputAddr name addr offset place).texts.flatten ↔ place = none := by
  simp only [Frame.texts, List.flatten_cons, List.flatten_nil, List.append_nil]
  cases place with
  | none => exact iff_of_true (EndsLine.append (by decide) _) rfl
  | some place =>
      refine iff_of_false ?_ (Option.some_ne_none place)
      simp only [← List.append_assoc]
      exact place.not_endsLine_text _

/-- The other frames end their lines. -/
theorem Frame.noSymbol_endsLine (addr : UInt64) :
    EndsLine (Frame.noSymbol addr).texts.flatten := by
  simp only [Frame.texts, List.flatten_cons, List.flatten_nil, List.append_nil]
  exact EndsLine.append (by decide) _

theorem Frame.inlined_endsLine (name : CStr) (place : Option Place) :
    EndsLine (Frame.inlined name place).texts.flatten := by
  simp only [Frame.texts, List.flatten_cons, List.flatten_nil, List.append_nil]
  cases place with
  | none => exact EndsLine.append (by decide) _
  | some place => exact EndsLine.append (EndsLine.append (by decide) _) _

/-! ## Entries -/

/-- A named symbol with a source file has an inlined function. -/
def FileHasInlined (result : Option BlazeSyms) (i : Nat) : Prop :=
  ∀ name sym, symbolOf result i = some (name, sym) → sym.codeInfo.file ≠ none → sym.inlined ≠ []

/-- The text of an entry. -/
def entryText (result : Option BlazeSyms) (entry : UInt64 × Nat) : Bytes :=
  ((shownFrames result entry).flatMap Frame.texts).flatten

theorem printed_entryCalls (result : Option BlazeSyms) (entry : UInt64 × Nat) :
    printed (entryCalls result entry) = some (entryText result entry) :=
  (entryCalls_prints result entry).printed

/-- The last of some frames ends the line. -/
theorem endsLine_of_concat {frames : List Frame} {last : Frame}
    (h : EndsLine last.texts.flatten) :
    EndsLine ((frames ++ [last]).flatMap Frame.texts).flatten := by
  rw [List.flatMap_append, List.flatten_append, List.flatMap_singleton]
  exact h.append _

theorem entryText_ne_nil (result : Option BlazeSyms) (entry : UInt64 × Nat) :
    entryText result entry ≠ [] := by
  rw [entryText, shownFrames, entryFrames]
  cases symbolOf result entry.2 with
  | none => simpa using Frame.flatten_texts_ne_nil (.noSymbol entry.1)
  | some named =>
      rw [List.flatMap_cons, List.flatten_append]
      exact List.append_ne_nil_of_left_ne_nil (Frame.flatten_texts_ne_nil _) _

/-- The last frame of an entry ends its line unless it is the frame of the
address, and has a file. -/
theorem entryText_endsLine_iff (result : Option BlazeSyms) {entry : UInt64 × Nat}
    (h : entry.1 ≠ 0) : EndsLine (entryText result entry) ↔ FileHasInlined result entry.2 := by
  rw [entryText, shownFrames, entryFrames, FileHasInlined]
  cases hsym : symbolOf result entry.2 with
  | none =>
      refine iff_of_true ?_ fun name sym hsome => by cases hsome
      rw [List.flatMap_singleton]
      exact Frame.noSymbol_endsLine entry.1
  | some named =>
      obtain ⟨name, sym⟩ := named
      simp only [if_neg h]
      rcases List.eq_nil_or_concat sym.inlined with hempty | ⟨before, last, hinlined⟩
      · rw [hempty, List.map_nil, List.flatMap_singleton, Frame.address_endsLine_iff,
          CodeInfo.place, Option.map_eq_none_iff]
        constructor
        · intro hfile name' sym' heq hsome
          cases heq
          exact absurd hfile hsome
        · intro hall
          by_contra hfile
          exact hall name sym rfl hfile hempty
      · have hne : sym.inlined ≠ [] := by simp [hinlined]
        refine iff_of_true ?_ fun name' sym' heq _ => ?_
        · rw [hinlined, List.concat_eq_append, List.map_append, ← List.cons_append]
          exact endsLine_of_concat (Frame.inlined_endsLine _ _)
        · cases heq
          exact hne

/-! ## The text of a stack -/

/-- The texts of all entries. -/
def entryTexts (result : Option BlazeSyms) (stack : List UInt64) : List Bytes :=
  stack.zipIdx.map (entryText result)

theorem ne_zero_of_mem_zipIdx {stack : List UInt64} (h : ∀ addr ∈ stack, addr ≠ 0)
    {entry : UInt64 × Nat} (hmem : entry ∈ stack.zipIdx) : entry.1 ≠ 0 :=
  h entry.1 (List.mem_of_getElem? (List.mem_zipIdx_iff_getElem?.mp hmem))

/-- The texts of the entries are what the stack is printed as, in one piece and
one by one. -/
theorem lineStructured_iff_texts (symbolizer : Symbolizer) {stack : List UInt64} (pid : Int32)
    {texts : List Bytes} (htexts : texts = entryTexts (symbolizer.symbolize stack pid) stack) :
    LineStructured symbolizer stack pid ↔
      (texts ≠ [] → EndsLine texts.flatten) ∧
        ∀ i < texts.length, AtLineStart (texts.take i).flatten := by
  have hlen : texts.length = stack.length := by
    rw [htexts, entryTexts, List.length_map, List.length_zipIdx]
  have hne : texts ≠ [] ↔ stack ≠ [] := by
    rw [← List.length_pos_iff, ← List.length_pos_iff, hlen]
  have hsplit : texts.map some = stack.zipIdx.map (fun entry =>
      (showEntry (symbolizer.symbolize stack pid) entry.1 entry.2).bind printed) := by
    rw [htexts, entryTexts, List.map_map]
    refine List.map_congr_left fun entry _ => ?_
    rw [showEntry_eq, Option.bind_some, printed_entryCalls]
    rfl
  have hwhole : (showStackTrace symbolizer stack pid).bind printed = some texts.flatten := by
    rw [showStackTrace_eq, Option.bind_some, htexts]
    exact printed_flatMap fun entry _ => printed_entryCalls _ entry
  rw [hne, hlen]
  constructor
  · rintro ⟨entries, hentries, -, hlines⟩
    have heq : entries = texts :=
      (List.map_inj_right fun _ _ => Option.some.inj).mp (hentries.trans hsplit.symm)
    rwa [heq] at hlines
  · exact fun hlines => ⟨texts, hsplit, hwhole, hlines⟩

theorem lineStructured_iff_entries (symbolizer : Symbolizer) {stack : List UInt64} (pid : Int32)
    (h : ∀ addr ∈ stack, addr ≠ 0) :
    LineStructured symbolizer stack pid ↔
      ∀ entry ∈ stack.zipIdx, FileHasInlined (symbolizer.symbolize stack pid) entry.2 := by
  have hends {entry : UInt64 × Nat} (hmem : entry ∈ stack.zipIdx) :=
    entryText_endsLine_iff (symbolizer.symbolize stack pid) (ne_zero_of_mem_zipIdx h hmem)
  have hne : ∀ text ∈ entryTexts (symbolizer.symbolize stack pid) stack, text ≠ [] := by
    intro text hmem
    obtain ⟨entry, -, rfl⟩ := List.mem_map.mp hmem
    exact entryText_ne_nil _ entry
  rw [lineStructured_iff_texts symbolizer pid rfl, lines_of_chunks_iff hne]
  constructor
  · intro hlines entry hmem
    exact (hends hmem).mp (hlines _ (List.mem_map_of_mem hmem))
  · intro hall text hmem
    obtain ⟨entry, hentry, rfl⟩ := List.mem_map.mp hmem
    exact (hends hentry).mpr (hall entry hentry)

/-- **Lines of a stack.**  The entries of a stack start at the start of a line
exactly if each named symbol with a source file has an inlined function. -/
theorem line_structured_iff (symbolizer : Symbolizer) (stack : List UInt64) (pid : Int32)
    (h : ∀ addr ∈ stack, addr ≠ 0) :
    LineStructured symbolizer stack pid ↔
      ∀ i < stack.length, FileHasInlined (symbolizer.symbolize stack pid) i := by
  rw [lineStructured_iff_entries symbolizer pid h]
  exact forall_mem_zipIdx_iff

theorem mainStack_ne_zero : ∀ addr ∈ [(0x1004 : UInt64)], addr ≠ 0 := by
  intro addr hmem
  rw [List.mem_singleton.mp hmem]
  decide +kernel

theorem line_structured_iff_main :
    LineStructured (fixedSymbolizer [mainSym noCode []]) [0x1004] 7 ↔
      ∀ i < 1, FileHasInlined (some [mainSym noCode []]) i :=
  line_structured_iff (fixedSymbolizer [mainSym noCode []]) [0x1004] 7 mainStack_ne_zero

/-- The directory and the file have no newline in them. -/
def CodeInfo.NoNewline (codeInfo : CodeInfo) : Prop :=
  (∀ dir, codeInfo.dir = some dir → 10 ∉ dir.bytes) ∧
    ∀ file, codeInfo.file = some file → 10 ∉ file.bytes

/-- The text of a symbol has no newline. -/
structure BlazeSym.NoNewline (sym : BlazeSym) : Prop where
  name : ∀ name, sym.name = some name → 10 ∉ name.bytes
  codeInfo : sym.codeInfo.NoNewline
  inlined : ∀ fn ∈ sym.inlined, 10 ∉ fn.name.bytes ∧ fn.codeInfo.NoNewline

/-- The frame of `main`, which is in `a.c`, does not end its line. -/
theorem file_line_not_ended :
    ¬ ∀ (symbolizer : Symbolizer) (stack : List UInt64) (pid : Int32),
      (∀ addr ∈ stack, addr ≠ 0) →
      (∀ syms, symbolizer.symbolize stack pid = some syms → ∀ sym ∈ syms, sym.NoNewline) →
      LineStructured symbolizer stack pid := by
  intro h
  let sym := mainSym ⟨none, some ⟨ascii "a.c", by decide⟩, 3⟩ []
  have hlines := h (fixedSymbolizer [sym]) [0x1004] 7 mainStack_ne_zero ?_
  · have hfile := (lineStructured_iff_entries (fixedSymbolizer [sym]) 7 mainStack_ne_zero).mp hlines
    exact hfile _ (List.mem_singleton_self _) _ _ rfl (Option.some_ne_none _) rfl
  · intro syms hsyms sym' hmem
    cases hsyms
    rw [List.mem_singleton.mp hmem]
    exact
      { name := by
          intro name hname
          cases hname
          decide
        codeInfo := by
          constructor
          · intro dir hdir
            cases hdir
          · intro file hfile
            cases hfile
            decide
        inlined := fun fn hfn => absurd hfn List.not_mem_nil }

end EPtracer
