import EPtracer.Syscall.Forgery

/-!
# Room for a line

`snprintf` cuts what does not fit `metric`, and the end of a line is its closing
brace and the time.  `metric_not_cut` says that the line of a submitted event is
there to its end.  The bound on its length rests on the strings of the event.
Each has a terminator in its 129 bytes (`Submits.strings_end`), whatever the
fetch of it did.
-/

namespace EPtracer

open CText RingBuffer

theorem Labels.suffix_text (rest : Bytes) : ∀ ls : Labels, rest <:+ ls.text rest
  | [] => List.suffix_refl rest
  | (key, value) :: ls => by
      have ih := Labels.suffix_text rest ls
      rw [Labels.text]
      refine List.IsSuffix.trans ih ?_
      simp only [← List.append_assoc]
      exact List.suffix_append _ _

theorem Line.suffix_text (l : Line) : ascii "\x7d " ++ signed l.microseconds.toInt <:+ l.text := by
  refine (Labels.suffix_text _ l.labels).trans ?_
  rw [Line.text]
  simp only [← List.append_assoc]
  exact List.suffix_append _ _

theorem Labels.mem_of_mem_strings {s : Bytes} : ∀ {ls : Labels}, s ∈ ls.strings →
    LabelValue.str s ∈ ls.map Prod.snd
  | [], h => absurd h List.not_mem_nil
  | (key, value) :: ls, h => by
      rw [List.map_cons, List.mem_cons]
      cases hv : value.isStr with
      | false =>
          rw [Labels.strings_of_number hv] at h
          exact .inr (Labels.mem_of_mem_strings h)
      | true =>
          obtain ⟨s', rfl⟩ := LabelValue.exists_str hv
          rcases List.mem_cons.mp h with rfl | h
          · exact .inl rfl
          · exact .inr (Labels.mem_of_mem_strings h)

/-- The strings of a submitted event end in their fields. -/
theorem Submits.strings_end {b : Build} {entry : ProgramName} {ctx : SysEnter} {ev : SyscallEvent}
    (h : Submits b entry ctx ev) :
    ∀ str ∈ eventStrings ev, ∃ s, str = some s ∧ s.length ≤ maxBufSize := by
  obtain ⟨-, ty, -, -, hcode, hlabels⟩ := h.labels
  rw [eventStrings_eq (SyscallEventType.ofCode_of_eq hcode) hlabels]
  intro str hstr
  obtain ⟨s, hs, rfl⟩ := List.mem_map.mp hstr
  have hfits := (eventLabels_fits hlabels).values _ (Labels.mem_of_mem_strings hs)
  exact ⟨s, rfl, hfits.1⟩

/-- **No line is cut.**  The line of a submitted event, up to the time at its end,
is shorter than the buffer it is formatted in. -/
theorem metric_not_cut (b : Build) (entry : ProgramName) (ctx : SysEnter) (ev : SyscallEvent)
    (microseconds : Int64) (h : Submits b entry ctx ev) :
    (∀ str ∈ eventStrings ev, ∃ s, str = some s ∧ s.length ≤ maxBufSize) ∧
    ∃ ty ls fmt args,
      SyscallEventType.ofCode ev.type = some ty ∧ eventLabels ev ty = some ls ∧
      formatMetric ev microseconds = snprintf sizeofMetric fmt args ∧
      format fmt args = some (⟨ev.pid, ty.name, ls, microseconds⟩ : Line).text ∧
      (⟨ev.pid, ty.name, ls, microseconds⟩ : Line).text.length < sizeofMetric ∧
      formatMetric ev microseconds =
        some ((⟨ev.pid, ty.name, ls, microseconds⟩ : Line).text ++ [0]) ∧
      ascii "\x7d " ++ signed microseconds.toInt <:+
        (⟨ev.pid, ty.name, ls, microseconds⟩ : Line).text := by
  obtain ⟨-, ty, -, -, hcode, hlabels⟩ := h.labels
  have hty := SyscallEventType.ofCode_of_eq hcode
  have hlen := (h.line_fits hcode microseconds).length_text_lt
  obtain ⟨fmt, args, hmetric, hformat⟩ := formatMetric_eq hty hlabels microseconds
  have hcall := snprintf_of_length_lt hformat hlen
  exact ⟨h.strings_end, ty, callLabels ctx ty, fmt, args, hty, hlabels, hmetric, hformat, hlen,
    hmetric.trans hcall, Line.suffix_text ⟨ev.pid, ty.name, callLabels ctx ty, microseconds⟩⟩

theorem metric_not_cut_newline :
    ∃ ev ls fmt args, Submits buildX86 shellName newlineCall ev ∧
      eventLabels ev .execve = some ls ∧
      formatMetric ev 5 = snprintf sizeofMetric fmt args ∧
      format fmt args = some (⟨ev.pid, "execve", ls, 5⟩ : Line).text ∧
      (⟨ev.pid, "execve", ls, 5⟩ : Line).text.length < sizeofMetric := by
  obtain ⟨ev, hsub, hcode⟩ := newlineCall_submits
  obtain ⟨-, ty, ls, fmt, args, hty, hls, hmetric, hformat, hlen, -⟩ :=
    metric_not_cut buildX86 shellName newlineCall ev 5 hsub
  rw [SyscallEventType.ofCode_of_eq hcode, Option.some.injEq] at hty
  subst hty
  exact ⟨ev, ls, fmt, args, hsub, hls, hmetric, hformat, hlen⟩

end EPtracer
