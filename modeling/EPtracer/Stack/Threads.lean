import EPtracer.Lib.Writers
import EPtracer.Stack.Output
import EPtracer.Syscall.Transcript

/-!
# Both tracers at once

With `--show-stacktrace` and `--show-syscall` two threads print to the standard
output.  Each `printf` writes in one piece, and the pieces of the threads come
in any order.  The syscall tracer writes a metric with its newline in one piece.
The stack tracer writes a frame in two, and the first has no newline if it has an
address.  So a metric can be put behind the address of a frame, in the same line,
as soon as a single address of the stack other than 0 has a symbol
(`metrics_kept_iff`).
-/

namespace EPtracer

open CText

/-! ## Texts that end their lines -/

/-- The first text of the frame of an address ends with the offset. -/
theorem Frame.not_endsLine_address {inputAddr : UInt64} {name : CStr} {addr offset : UInt64}
    {place : Option Place} :
    ¬ ∀ text ∈ (Frame.address inputAddr name addr offset place).texts, EndsLine text := by
  intro hall
  have hends := hall _ List.mem_cons_self
  rw [endsLine_append_iff _ (hex_ne_nil _)] at hends
  exact (plain_hex _ _ (List.mem_of_getLast? hends)).2.1 rfl

theorem Frame.noSymbol_lines (addr : UInt64) :
    ∀ text ∈ (Frame.noSymbol addr).texts, EndsLine text := by
  intro text htext
  rw [List.mem_singleton.mp htext]
  exact EndsLine.append (by decide) _

theorem Frame.inlined_lines (name : CStr) (place : Option Place) :
    ∀ text ∈ (Frame.inlined name place).texts, EndsLine text := by
  have hname : EndsLine (List.replicate 16 32 ++ ascii "  " ++ name.bytes ++ ascii "\n") :=
    EndsLine.append (by decide) _
  cases place with
  | none => exact List.forall_mem_cons.mpr ⟨hname, List.forall_mem_singleton.mpr (by decide)⟩
  | some place =>
      refine List.forall_mem_cons.mpr ⟨hname, List.forall_mem_singleton.mpr ?_⟩
      exact EndsLine.append (by decide) _

/-- The texts of an entry all end their lines exactly if it has no symbol, or its
address is 0. -/
theorem shownFrames_lines_iff (result : Option BlazeSyms) (entry : UInt64 × Nat) :
    (∀ text ∈ (shownFrames result entry).flatMap Frame.texts, EndsLine text) ↔
      (entry.1 ≠ 0 → symbolOf result entry.2 = none) := by
  rw [shownFrames, entryFrames]
  cases symbolOf result entry.2 with
  | none => exact iff_of_true (by simpa using Frame.noSymbol_lines entry.1) fun _ => rfl
  | some named =>
      obtain ⟨name, sym⟩ := named
      rw [List.flatMap_cons, List.forall_mem_append]
      split
      next hzero =>
        refine iff_of_true ⟨Frame.inlined_lines name sym.codeInfo.place, ?_⟩ (absurd hzero ·)
        intro text htext
        obtain ⟨frame, hframe, htext⟩ := List.mem_flatMap.mp htext
        obtain ⟨fn, -, rfl⟩ := List.mem_map.mp hframe
        exact Frame.inlined_lines _ _ text htext
      next hne =>
        refine iff_of_false (fun hall => Frame.not_endsLine_address hall.1) fun hnone => ?_
        exact absurd (hnone hne) (Option.some_ne_none _)

/-! ## Both threads -/

theorem exists_metrics {records : List (SyscallEvent × Int64)} (h : ∀ r ∈ records, Reported r) :
    ∃ metrics : List Bytes, records.map (fun r => syscallEventHandler r.1 r.2) = metrics.map some ∧
      ∀ m ∈ metrics, EndsLine m := by
  induction records with
  | nil => exact ⟨[], rfl, by simp⟩
  | cons r records ih =>
      rw [List.forall_mem_cons] at h
      obtain ⟨ty, ls, -, -, -, -, hhandler⟩ := h.1.line
      obtain ⟨metrics, hmetrics, hall⟩ := ih h.2
      refine ⟨_ :: metrics, by rw [List.map_cons, List.map_cons, hhandler, hmetrics], ?_⟩
      exact List.forall_mem_cons.mpr ⟨EndsLine.append (by decide) _, hall⟩

/-- **Both tracers at once.**  While a stack is printed, the metrics of the other
thread start at the start of a line, whatever the order, exactly if there are
none, or no address of the stack but 0 has a symbol. -/
theorem metrics_kept_iff (symbolizer : Symbolizer) (stack : List UInt64) (pid : Int32)
    (records : List (SyscallEvent × Int64)) (hrecords : ∀ r ∈ records, Reported r) :
    ∃ (calls : List PrintfCall) (chunks metrics : List Bytes),
      showStackTrace symbolizer stack pid = some calls ∧
      calls.map callText = chunks.map some ∧
      records.map (fun r => syscallEventHandler r.1 r.2) = metrics.map some ∧
      ((∀ l, Interleaves chunks metrics l → LinesKept l) ↔
        records = [] ∨ ∀ entry ∈ stack.zipIdx, entry.1 ≠ 0 →
          symbolOf (symbolizer.symbolize stack pid) entry.2 = none) := by
  obtain ⟨calls, hcalls, hprints⟩ := showStackTrace_prints symbolizer stack pid
  obtain ⟨metrics, hmetrics, hlines⟩ := exists_metrics hrecords
  refine ⟨calls, _, metrics, hcalls, hprints, hmetrics, ?_⟩
  rcases eq_or_ne records [] with rfl | hsome
  · obtain rfl := List.map_eq_nil_iff.mp hmetrics.symm
    exact iff_of_true (fun l hl => linesKept_of_none hl) (.inl rfl)
  · have hmetric : metrics ≠ [] := by
      rintro rfl
      exact hsome (List.map_eq_nil_iff.mp hmetrics)
    have hne : ∀ text ∈ (stack.zipIdx.flatMap
        (shownFrames (symbolizer.symbolize stack pid))).flatMap Frame.texts, text ≠ [] := by
      intro text htext
      obtain ⟨frame, -, htext⟩ := List.mem_flatMap.mp htext
      exact frame.ne_nil_of_mem_texts text htext
    rw [lines_kept_iff hne hlines hmetric, or_iff_right hsome, List.flatMap_assoc,
      List.forall_mem_flatMap]
    exact forall₂_congr fun entry _ => shownFrames_lines_iff _ entry

/-- A metric can be put behind the address of `main`. -/
theorem metrics_kept_iff_main :
    ∃ ev, Reported (ev, 5) ∧ ∃ (calls : List PrintfCall) (chunks metrics : List Bytes),
      showStackTrace (fixedSymbolizer [mainSym noCode []]) [0x1004] 7 = some calls ∧
      calls.map callText = chunks.map some ∧
      [(ev, (5 : Int64))].map (fun r => syscallEventHandler r.1 r.2) = metrics.map some ∧
      ¬ ∀ l, Interleaves chunks metrics l → LinesKept l := by
  obtain ⟨ev, hsub, -⟩ := newlineCall_submits
  have hrep : Reported (ev, 5) := ⟨buildX86, shellName, newlineCall, hsub⟩
  obtain ⟨calls, chunks, metrics, hcalls, hchunks, hmetrics, hiff⟩ :=
    metrics_kept_iff (fixedSymbolizer [mainSym noCode []]) [0x1004] 7 [(ev, 5)]
      (by simpa using hrep)
  refine ⟨ev, hrep, calls, chunks, metrics, hcalls, hchunks, hmetrics, ?_⟩
  rw [hiff, or_iff_right (List.cons_ne_nil _ _)]
  intro hall
  have hsym := hall _ (List.mem_singleton_self _) (by decide +kernel)
  cases hsym

end EPtracer
