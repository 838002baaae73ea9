import EPtracer.Lib.Lines

/-!
# The frames of a stack

`showStackTrace` has the addresses of a stack symbolized, and prints them one
after the other.  The symbolizer gives an array with a symbol for each address,
or a shorter one, or none.  A symbol may have no name.  It comes with the
functions that were inlined there, and each of these has a name and a place in
the source of its own.

The model is `none` where the code leaves the array.  `showStackTrace_prints`
says that it never does, and which texts it writes.  For an inlined function
these are the place of the function and the name of the symbol
(`frames_named_iff`).  An address 0 is written as an inlined function too
(`showEntry_zero`).
-/

namespace EPtracer

open CText

/-! ## What the symbolizer gives -/

/-- `blaze_symbolize_code_info`, where `dir` and `file` may be null. -/
structure CodeInfo where
  dir : Option CStr
  file : Option CStr
  line : UInt32

/-- `struct blaze_symbolize_inlined_fn`. -/
structure InlinedFn where
  name : CStr
  codeInfo : CodeInfo

/-- `struct blaze_sym`. -/
structure BlazeSym where
  name : Option CStr
  addr : UInt64
  offset : UInt64
  codeInfo : CodeInfo
  inlined : List InlinedFn

/-- The array in `struct blaze_syms`, which has `cnt` symbols. -/
abbrev BlazeSyms := List BlazeSym

/-- The calls of the symbolizer.  The result may be null. -/
structure Symbolizer where
  processAbsAddrs : UInt32 → List UInt64 → Option BlazeSyms
  kernelAbsAddrs : List UInt64 → Option BlazeSyms

/-! ## The code -/

/-- `print_frame(name, input_addr, addr, offset, code_info)`. -/
def printFrame (name : CStr) (inputAddr addr offset : UInt64) (codeInfo : Option CodeInfo) :
    List PrintfCall :=
  if inputAddr ≠ 0 then
    ⟨"0x%016lx: %s @ 0x%lx+0x%lx",
      [.ulong inputAddr, .str name.bytes, .ulong addr, .ulong offset]⟩ ::
    match codeInfo with
    | some ⟨some dir, some file, line⟩ =>
        [⟨" %s/%s:%u", [.str dir.bytes, .str file.bytes, .uint line]⟩]
    | some ⟨none, some file, line⟩ => [⟨" %s:%u", [.str file.bytes, .uint line]⟩]
    | _ => [⟨"\n", []⟩]
  else
    ⟨"%16s  %s\n", [.str [], .str name.bytes]⟩ ::
    match codeInfo with
    | some ⟨some dir, some file, line⟩ =>
        [⟨"@ %s/%s:%u [inlined]\n", [.str dir.bytes, .str file.bytes, .uint line]⟩]
    | some ⟨none, some file, line⟩ => [⟨"@ %s:%u [inlined]\n", [.str file.bytes, .uint line]⟩]
    | _ => [⟨"[inlined]\n", []⟩]

/-- The line for an address without a symbol. -/
def noSymbol (addr : UInt64) : List PrintfCall := [⟨"0x%016llx: <no-symbol>\n", [.ulong addr]⟩]

/-- The body of the loop of `show_stack_trace`, for `stack[i]`. -/
def showEntry (result : Option BlazeSyms) (addr : UInt64) (i : Nat) : Option (List PrintfCall) :=
  match result with
  | none => some (noSymbol addr)
  | some syms =>
      if syms.length ≤ i then some (noSymbol addr)
      else do
        let sym ← syms[i]?
        match sym.name with
        | none => some (noSymbol addr)
        | some name =>
            some (printFrame name addr sym.addr sym.offset (some sym.codeInfo) ++
              sym.inlined.flatMap fun inlined => printFrame name 0 0 0 (some inlined.codeInfo))

/-- The loop, over the addresses with their indices. -/
def showEntries (result : Option BlazeSyms) : List (UInt64 × Nat) → Option (List PrintfCall)
  | [] => some []
  | (addr, i) :: entries => do
      let calls ← showEntry result addr i
      let rest ← showEntries result entries
      some (calls ++ rest)

/-- The symbols for a stack, of the process or of the kernel. -/
def Symbolizer.symbolize (symbolizer : Symbolizer) (stack : List UInt64) (pid : Int32) :
    Option BlazeSyms :=
  if pid ≠ 0 then symbolizer.processAbsAddrs pid.toUInt32 stack
  else symbolizer.kernelAbsAddrs stack

/-- `show_stack_trace(stack, stack_sz, pid)`: the calls it makes. -/
def showStackTrace (symbolizer : Symbolizer) (stack : List UInt64) (pid : Int32) :
    Option (List PrintfCall) :=
  showEntries (symbolizer.symbolize stack pid) stack.zipIdx

/-! ## What a stack should show -/

/-- A place in the source.  The directory may be unknown. -/
structure Place where
  dir : Option CStr
  file : CStr
  line : UInt32

/-- Where the code is, if the file is known. -/
def CodeInfo.place (codeInfo : CodeInfo) : Option Place :=
  codeInfo.file.map fun file => ⟨codeInfo.dir, file, codeInfo.line⟩

/-- A frame of a stack, with what is known of it. -/
inductive Frame where
  /-- An address of the stack without a symbol. -/
  | noSymbol (addr : UInt64)
  /-- An address of the stack with its symbol, and where it is in that. -/
  | address (inputAddr : UInt64) (name : CStr) (addr offset : UInt64) (place : Option Place)
  /-- A function inlined at the address before. -/
  | inlined (name : CStr) (place : Option Place)

/-- The symbol of an entry, and its name, if it has one. -/
def symbolOf (result : Option BlazeSyms) (i : Nat) : Option (CStr × BlazeSym) := do
  let syms ← result
  let sym ← syms[i]?
  let name ← sym.name
  some (name, sym)

/-- The frames of an entry, where `inlinedName` names the functions inlined in a
symbol.  At the address 0 there is no address to show, and the symbol is shown as
an inlined function. -/
def entryFrames (inlinedName : CStr → InlinedFn → CStr) (result : Option BlazeSyms)
    (entry : UInt64 × Nat) : List Frame :=
  match symbolOf result entry.2 with
  | none => [.noSymbol entry.1]
  | some (name, sym) =>
      (if entry.1 = 0 then .inlined name sym.codeInfo.place
        else .address entry.1 name sym.addr sym.offset sym.codeInfo.place) ::
        sym.inlined.map fun fn => .inlined (inlinedName name fn) fn.codeInfo.place

/-- Each inlined function under its own name. -/
def namedFrames : Option BlazeSyms → UInt64 × Nat → List Frame :=
  entryFrames fun _ fn => fn.name

/-- Each inlined function under the name of the symbol. -/
def shownFrames : Option BlazeSyms → UInt64 × Nat → List Frame :=
  entryFrames fun name _ => name

/-! ## How it is written -/

/-- `%016lx`. -/
def paddedHex (v : UInt64) : Bytes :=
  List.replicate (16 - (hex v.toNat).length) 48 ++ hex v.toNat

/-- `dir/file:line`, or `file:line`. -/
def Place.text (place : Place) : Bytes :=
  (match place.dir with
    | some dir => dir.bytes ++ ascii "/"
    | none => []) ++ place.file.bytes ++ ascii ":" ++ decimal place.line.toNat

/-- The texts a frame is written as: first the name, then the place. -/
def Frame.texts : Frame → List Bytes
  | .noSymbol addr => [ascii "0x" ++ paddedHex addr ++ ascii ": <no-symbol>\n"]
  | .address inputAddr name addr offset place =>
      [ascii "0x" ++ paddedHex inputAddr ++ ascii ": " ++ name.bytes ++ ascii " @ 0x" ++
          hex addr.toNat ++ ascii "+0x" ++ hex offset.toNat,
        match place with
        | some place => ascii " " ++ place.text
        | none => ascii "\n"]
  | .inlined name place =>
      [List.replicate 16 32 ++ ascii "  " ++ name.bytes ++ ascii "\n",
        match place with
        | some place => ascii "@ " ++ place.text ++ ascii " [inlined]\n"
        | none => ascii "[inlined]\n"]

/-- Each entry is written once and in its place, with the functions inlined in it
under their own names and each frame with its own place, and the array is not
left. -/
def FramesNamed (symbolizer : Symbolizer) (stack : List UInt64) (pid : Int32) : Prop :=
  ∃ calls, showStackTrace symbolizer stack pid = some calls ∧
    Prints calls
      ((stack.zipIdx.flatMap (namedFrames (symbolizer.symbolize stack pid))).flatMap Frame.texts)

/-! ## The formats -/

theorem format_address (inputAddr addr offset : UInt64) (name : Bytes) :
    format "0x%016lx: %s @ 0x%lx+0x%lx"
        [.ulong inputAddr, .str name, .ulong addr, .ulong offset] =
      some (ascii "0x" ++ (paddedHex inputAddr ++ (ascii ": " ++ (name ++ (ascii " @ 0x" ++
        (hex addr.toNat ++ (ascii "+0x" ++ (hex offset.toNat ++ [])))))))) := by
  repeat rw [ascii_ofList]
  rw [format_ofList]
  rfl

theorem format_noSymbol (addr : UInt64) :
    format "0x%016llx: <no-symbol>\n" [.ulong addr] =
      some (ascii "0x" ++ (paddedHex addr ++ ascii ": <no-symbol>\n")) := by
  repeat rw [ascii_ofList]
  rw [format_ofList]
  rfl

theorem format_inlined (name : Bytes) :
    format "%16s  %s\n" [.str [], .str name] =
      some (List.replicate 16 32 ++ (ascii "  " ++ (name ++ ascii "\n"))) := by
  repeat rw [ascii_ofList]
  rw [format_ofList]
  rfl

theorem format_dir (dir file : Bytes) (line : UInt32) :
    format " %s/%s:%u" [.str dir, .str file, .uint line] =
      some (ascii " " ++ (dir ++ (ascii "/" ++ (file ++ (ascii ":" ++
        (decimal line.toNat ++ [])))))) := by
  repeat rw [ascii_ofList]
  rw [format_ofList]
  rfl

theorem format_file (file : Bytes) (line : UInt32) :
    format " %s:%u" [.str file, .uint line] =
      some (ascii " " ++ (file ++ (ascii ":" ++ (decimal line.toNat ++ [])))) := by
  repeat rw [ascii_ofList]
  rw [format_ofList]
  rfl

theorem format_inlinedDir (dir file : Bytes) (line : UInt32) :
    format "@ %s/%s:%u [inlined]\n" [.str dir, .str file, .uint line] =
      some (ascii "@ " ++ (dir ++ (ascii "/" ++ (file ++ (ascii ":" ++ (decimal line.toNat ++
        ascii " [inlined]\n")))))) := by
  repeat rw [ascii_ofList]
  rw [format_ofList]
  rfl

theorem format_inlinedFile (file : Bytes) (line : UInt32) :
    format "@ %s:%u [inlined]\n" [.str file, .uint line] =
      some (ascii "@ " ++ (file ++ (ascii ":" ++ (decimal line.toNat ++
        ascii " [inlined]\n")))) := by
  repeat rw [ascii_ofList]
  rw [format_ofList]
  rfl

/-- A format without conversions. -/
theorem format_newline : format "\n" [] = some (ascii "\n") := by
  rw [ascii_ofList, format_ofList]
  rfl

theorem format_inlinedNowhere : format "[inlined]\n" [] = some (ascii "[inlined]\n") := by
  rw [ascii_ofList, format_ofList]
  rfl

/-! ## What the code writes -/

/-- The formats give the name and the place of a frame. -/
theorem printFrame_address {inputAddr : UInt64} (h : inputAddr ≠ 0) (name : CStr)
    (addr offset : UInt64) (codeInfo : CodeInfo) :
    Prints (printFrame name inputAddr addr offset (some codeInfo))
      (Frame.address inputAddr name addr offset codeInfo.place).texts := by
  unfold printFrame
  rw [if_pos h]
  rcases codeInfo with ⟨_ | dir, _ | file, line⟩
  all_goals
    simp [Prints, callText, Frame.texts, CodeInfo.place, Place.text, format_address, format_dir,
      format_file, format_newline]

theorem printFrame_inlined (name : CStr) (addr offset : UInt64) (codeInfo : CodeInfo) :
    Prints (printFrame name 0 addr offset (some codeInfo))
      (Frame.inlined name codeInfo.place).texts := by
  unfold printFrame
  rw [if_neg (not_not_intro rfl)]
  rcases codeInfo with ⟨_ | dir, _ | file, line⟩
  all_goals
    simp [Prints, callText, Frame.texts, CodeInfo.place, Place.text, format_inlined,
      format_inlinedDir, format_inlinedFile, format_inlinedNowhere]

theorem noSymbol_prints (addr : UInt64) : Prints (noSymbol addr) (Frame.noSymbol addr).texts := by
  simp [Prints, callText, noSymbol, Frame.texts, format_noSymbol]

theorem symbolOf_of_le {syms : BlazeSyms} {i : Nat} (h : syms.length ≤ i) :
    symbolOf (some syms) i = none := by
  simp [symbolOf, h]

theorem symbolOf_of_lt {syms : BlazeSyms} {i : Nat} (h : i < syms.length) :
    symbolOf (some syms) i = syms[i].name.map fun name => (name, syms[i]) := by
  cases hname : syms[i].name with
  | none => simp [symbolOf, h, hname]
  | some name => simp [symbolOf, h, hname]

/-- The calls for an entry. -/
def entryCalls (result : Option BlazeSyms) (entry : UInt64 × Nat) : List PrintfCall :=
  match symbolOf result entry.2 with
  | none => noSymbol entry.1
  | some (name, sym) =>
      printFrame name entry.1 sym.addr sym.offset (some sym.codeInfo) ++
        sym.inlined.flatMap fun fn => printFrame name 0 0 0 (some fn.codeInfo)

theorem showEntry_eq (result : Option BlazeSyms) (addr : UInt64) (i : Nat) :
    showEntry result addr i = some (entryCalls result (addr, i)) := by
  cases result with
  | none => rfl
  | some syms =>
      rw [showEntry, entryCalls]
      split
      next hlen => rw [symbolOf_of_le hlen]
      next hlen =>
        have hlt := Nat.not_le.mp hlen
        rw [symbolOf_of_lt hlt, List.getElem?_eq_getElem hlt]
        cases hname : syms[i].name with
        | none => simp [hname]
        | some name => simp [hname]

theorem entryCalls_prints (result : Option BlazeSyms) (entry : UInt64 × Nat) :
    Prints (entryCalls result entry) ((shownFrames result entry).flatMap Frame.texts) := by
  rw [entryCalls, shownFrames, entryFrames]
  cases symbolOf result entry.2 with
  | none => simpa using noSymbol_prints entry.1
  | some named =>
      obtain ⟨name, sym⟩ := named
      simp only [List.flatMap_cons, List.flatMap_map]
      refine Prints.append ?_ (Prints.flatMap fun fn _ => printFrame_inlined name 0 0 fn.codeInfo)
      split
      next hzero =>
        rw [hzero]
        exact printFrame_inlined name sym.addr sym.offset sym.codeInfo
      next hne => exact printFrame_address hne name sym.addr sym.offset sym.codeInfo

theorem showEntries_eq (result : Option BlazeSyms) (entries : List (UInt64 × Nat)) :
    showEntries result entries = some (entries.flatMap (entryCalls result)) := by
  induction entries with
  | nil => rfl
  | cons entry entries ih =>
      rw [showEntries, showEntry_eq, ih, List.flatMap_cons]
      rfl

/-- The array is never left. -/
theorem showStackTrace_eq (symbolizer : Symbolizer) (stack : List UInt64) (pid : Int32) :
    showStackTrace symbolizer stack pid =
      some (stack.zipIdx.flatMap (entryCalls (symbolizer.symbolize stack pid))) :=
  showEntries_eq _ _

/-- A stack is written as the frames of its entries, in order. -/
theorem showStackTrace_prints (symbolizer : Symbolizer) (stack : List UInt64) (pid : Int32) :
    ∃ calls, showStackTrace symbolizer stack pid = some calls ∧
      Prints calls ((stack.zipIdx.flatMap
        (shownFrames (symbolizer.symbolize stack pid))).flatMap Frame.texts) := by
  refine ⟨_, showStackTrace_eq symbolizer stack pid, ?_⟩
  rw [List.flatMap_assoc]
  exact Prints.flatMap fun entry _ => entryCalls_prints _ entry

/-- An entry of the address 0 is written as one more function inlined in the entry
before it. -/
theorem showEntry_zero {result : Option BlazeSyms} {i : Nat} {name : CStr} {sym : BlazeSym}
    (h : symbolOf result i = some (name, sym)) :
    ∃ calls, showEntry result 0 i = some calls ∧
      Prints calls (((⟨name, sym.codeInfo⟩ :: sym.inlined).map fun fn : InlinedFn =>
        Frame.inlined name fn.codeInfo.place).flatMap Frame.texts) := by
  refine ⟨_, showEntry_eq result 0 i, ?_⟩
  have hprints := entryCalls_prints result (0, i)
  rw [shownFrames, entryFrames] at hprints
  simpa only [h, if_true, List.map_cons] using hprints

/-! ## Names -/

theorem Frame.inlined_texts_inj {name name' : CStr} {place : Option Place} :
    (Frame.inlined name place).texts = (Frame.inlined name' place).texts ↔ name = name' := by
  constructor
  · intro h
    have hfirst := List.append_cancel_right (List.cons.inj h).1
    exact CStr.ext (List.append_cancel_left hfirst)
  · rintro rfl
    rfl

theorem length_shownFrames (result : Option BlazeSyms) (entry : UInt64 × Nat) :
    ((shownFrames result entry).flatMap Frame.texts).length =
      ((namedFrames result entry).flatMap Frame.texts).length := by
  rw [shownFrames, namedFrames, entryFrames, entryFrames]
  cases symbolOf result entry.2 with
  | none => rfl
  | some named =>
      simp only [List.flatMap_cons, List.flatMap_map, List.length_append, List.length_flatMap]
      rfl

/-- The functions inlined in a named symbol have its name. -/
def InlinedShareName (result : Option BlazeSyms) (i : Nat) : Prop :=
  ∀ name sym, symbolOf result i = some (name, sym) → ∀ fn ∈ sym.inlined, fn.name = name

theorem shownFrames_texts_eq_iff (result : Option BlazeSyms) (entry : UInt64 × Nat) :
    (shownFrames result entry).flatMap Frame.texts =
        (namedFrames result entry).flatMap Frame.texts ↔
      InlinedShareName result entry.2 := by
  rw [shownFrames, namedFrames, entryFrames, entryFrames, InlinedShareName]
  cases hsym : symbolOf result entry.2 with
  | none => exact iff_of_true rfl fun name sym h => by cases h
  | some named =>
      obtain ⟨name, sym⟩ := named
      simp only [List.flatMap_cons, List.flatMap_map, List.append_cancel_left_eq]
      have hlen : ∀ fn ∈ sym.inlined, (Frame.inlined name fn.codeInfo.place).texts.length =
          (Frame.inlined fn.name fn.codeInfo.place).texts.length := fun _ _ => rfl
      rw [flatMap_eq_iff hlen]
      constructor
      · intro h name' sym' heq fn hfn
        cases heq
        exact (Frame.inlined_texts_inj.mp (h fn hfn)).symm
      · intro h fn hfn
        exact Frame.inlined_texts_inj.mpr (h name sym rfl fn hfn).symm

theorem framesNamed_iff_entries (symbolizer : Symbolizer) (stack : List UInt64) (pid : Int32) :
    FramesNamed symbolizer stack pid ↔
      ∀ entry ∈ stack.zipIdx, InlinedShareName (symbolizer.symbolize stack pid) entry.2 := by
  obtain ⟨calls, hcalls, hprints⟩ := showStackTrace_prints symbolizer stack pid
  have htexts : FramesNamed symbolizer stack pid ↔
      (stack.zipIdx.flatMap (shownFrames (symbolizer.symbolize stack pid))).flatMap Frame.texts =
        (stack.zipIdx.flatMap (namedFrames (symbolizer.symbolize stack pid))).flatMap
          Frame.texts := by
    constructor
    · rintro ⟨calls', hcalls', hnamed⟩
      obtain rfl := Option.some.inj (hcalls.symm.trans hcalls')
      exact hprints.texts_unique hnamed
    · intro heq
      exact ⟨calls, hcalls, heq ▸ hprints⟩
  rw [htexts, List.flatMap_assoc, List.flatMap_assoc,
    flatMap_eq_iff fun entry _ => length_shownFrames _ entry]
  exact forall₂_congr fun entry _ => shownFrames_texts_eq_iff _ entry

/-- **The names of the frames.**  A stack is printed under the right names exactly
if each function inlined in a named symbol has the name of that symbol. -/
theorem frames_named_iff (symbolizer : Symbolizer) (stack : List UInt64) (pid : Int32) :
    FramesNamed symbolizer stack pid ↔
      ∀ i < stack.length, InlinedShareName (symbolizer.symbolize stack pid) i := by
  rw [framesNamed_iff_entries]
  exact forall_mem_zipIdx_iff

/-- A symbolizer that gives the same symbols for any stack. -/
def fixedSymbolizer (syms : BlazeSyms) : Symbolizer := ⟨fun _ _ => some syms, fun _ => some syms⟩

/-- No code information at all. -/
def noCode : CodeInfo := ⟨none, none, 0⟩

/-- `main`, with a function in it. -/
def mainSym (codeInfo : CodeInfo) (inlined : List InlinedFn) : BlazeSym :=
  ⟨some ⟨ascii "main", by decide⟩, 0x1000, 4, codeInfo, inlined⟩

/-- The function `get` was inlined in `main`, and is printed as `main`. -/
theorem inlined_misnamed :
    ¬ ∀ (symbolizer : Symbolizer) (stack : List UInt64) (pid : Int32),
      FramesNamed symbolizer stack pid := by
  intro h
  let get : InlinedFn := ⟨⟨ascii "get", by decide⟩, noCode⟩
  have hnamed := (framesNamed_iff_entries (fixedSymbolizer [mainSym noCode [get]]) [0x1004]
    7).mp (h _ _ _)
  have hname := hnamed _ (List.mem_singleton_self _) _ _ rfl get (List.mem_singleton_self get)
  exact absurd (congrArg CStr.bytes hname) (by decide)

end EPtracer
