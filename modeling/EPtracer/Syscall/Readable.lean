import EPtracer.Syscall.Coverage
import EPtracer.Syscall.Forgery

/-!
# Strings and what lies after them

A string of the traced process ends at its NUL.  The arms read 128 bytes from
its start, whether it ends before or not, and the read fails as a whole when one
of the bytes cannot be read.  So a short string close to the end of its mapping
is lost, and its call with it.  An arm of `mount` does not check, and reports an
empty string in its place.

`HasString` says where a string is in a user memory, and
`strings_reported_iff` for which placements the strings of a call are reported.
-/

namespace EPtracer

open CText RingBuffer

variable {b : Build} {entry : ProgramName} {ctx : SysEnter}

/-! ## Strings in user memory -/

/-- String `s` is at an address, and all of it can be read, with its NUL. -/
def HasString (mem : UserMem) (addr : UInt64) (s : CStr) : Prop :=
  mem.read (s.bytes.length + 1) addr = some (s.bytes ++ [0])

/-- What is read is read by a shorter read as well. -/
theorem UserMem.read_take {mem : UserMem} : ∀ {m n : Nat} {addr : UInt64} {b : Bytes},
    mem.read n addr = some b → m ≤ n → mem.read m addr = some (b.take m)
  | 0, _, _, _, _, _ => by simp [UserMem.read]
  | m + 1, 0, _, _, _, hle => by simp at hle
  | m + 1, n + 1, addr, b, h, hle => by
      simp only [UserMem.read] at h
      split at h
      next c b' hc hb =>
        cases h
        have ih := UserMem.read_take hb (Nat.le_of_succ_le_succ hle)
        simp [UserMem.read, hc, ih]
      next => cases h

/-- The bytes of a read that reaches the string's end start with the string. -/
theorem HasString.userString_eq {mem : UserMem} {addr : UInt64} {s : CStr}
    (h : HasString mem addr s) (hread : mem.read maxBufSize addr ≠ none) :
    userString mem addr = s.bytes.take maxBufSize := by
  obtain ⟨b, hb⟩ := Option.ne_none_iff_exists'.mp hread
  simp only [userString, hb]
  rcases Nat.lt_or_ge s.bytes.length maxBufSize with hlt | hge
  · have hstart : b.take (s.bytes.length + 1) = s.bytes ++ [0] :=
      Option.some.inj ((UserMem.read_take hb hlt).symm.trans h)
    have hsplit : b = s.bytes ++ 0 :: b.drop (s.bytes.length + 1) := by
      rw [← List.singleton_append, ← List.append_assoc, ← hstart, List.take_append_drop]
    have hstring := cString_append_zero s.bytes (b.drop (s.bytes.length + 1))
    rw [cString, if_pos (by simp), takeWhile_of_noNul s.noNul, ← hsplit] at hstring
    rw [Option.some.inj hstring, List.take_of_length_le (Nat.le_of_lt hlt)]
  · have hstart := UserMem.read_take h (Nat.le_succ_of_le hge)
    rw [hb, Option.some.injEq, List.take_append_of_le_length hge] at hstart
    rw [hstart, takeWhile_of_noNul]
    exact fun hmem => s.noNul (List.mem_of_mem_take hmem)

theorem userString_of_unreadable {mem : UserMem} {addr : UInt64}
    (h : mem.read maxBufSize addr = none) : userString mem addr = [] := by
  simp only [userString, h]

/-! ## The strings of an event -/

/-- The calls whose arms report strings. -/
def stringCalls : List SyscallNr :=
  [.nrExecve, .nrOpenat, .nrChown, .nrMount, .nrUmount2, .nrUmount]

theorem callLabels_strings {nr : SyscallNr} {ty : SyscallEventType}
    (hty : nr.eventType = some ty) :
    (callLabels ctx ty).strings = nr.strings.map fun i => userString ctx.mem (ctx.args i) := by
  cases nr <;> cases hty <;> rfl

/-- The strings of a filled event are what a reader finds at the arguments. -/
theorem fill_eventStrings {pid : Int32} {nr : SyscallNr} {old ev : SyscallEvent}
    (h : fill pid ctx nr old = some ev) :
    eventStrings ev = nr.strings.map fun i => some (userString ctx.mem (ctx.args i)) := by
  obtain ⟨ty, hty, hcode, hlabels⟩ := fill_labels h
  rw [eventStrings_eq (SyscallEventType.ofCode_of_eq hcode) hlabels, callLabels_strings hty,
    List.map_map]
  rfl

/-- The strings of these calls but `mount` are checked. -/
theorem checkedReadFails_of_unreadable {nr : SyscallNr} (hnr : nr ∈ stringCalls)
    (hmount : nr ≠ .nrMount) {i : Fin 6} (hi : i ∈ nr.strings)
    (hread : ctx.mem.read maxBufSize (ctx.args i) = none) : CheckedReadFails ctx nr := by
  refine ⟨i, ?_, hread⟩
  cases nr <;> simp [stringCalls] at hnr
  case nrMount => exact absurd rfl hmount
  all_goals
    rw [SyscallNr.strings, List.mem_singleton] at hi
    rw [hi]
    rfl

/-! ## Which strings are reported -/

/-- An execution submits one event, and each of its strings is the start of the
one at the argument. -/
def StringsReported (nr : SyscallNr) (strs : Fin 6 → CStr)
    (l : List (Act SyscallEvent Effect)) : Prop :=
  ∃ ev, submissions l = [ev] ∧
    eventStrings ev = nr.strings.map fun i => some ((strs i).bytes.take maxBufSize)

/-- **Strings and their surroundings.**  The strings of a call are reported
exactly if 128 bytes can be read at each, or those that cannot are empty
arguments of `mount`. -/
theorem strings_reported_iff (b : Build) (entry : ProgramName) (ctx : SysEnter) (nr : SyscallNr)
    (strs : Fin 6 → CStr) (l : List (Act SyscallEvent Effect))
    (hcase : b.case ctx.id = some nr) (hnr : nr ∈ stringCalls) (hsel : Selected entry ctx)
    (hstrs : ∀ i ∈ nr.strings, HasString ctx.mem (ctx.args i) (strs i))
    (he : (sysEnterMultiplexer b entry ctx).Exec l .ret) (hroom : Act.reserve none ∉ l) :
    StringsReported nr strs l ↔ ∀ i ∈ nr.strings,
      ctx.mem.read maxBufSize (ctx.args i) ≠ none ∨ nr = .nrMount ∧ (strs i).bytes = [] := by
  have hopen : nr ≠ .nrOpen := by
    rintro rfl
    simp [stringCalls] at hnr
  have hioctl : nr ≠ .nrIoctl := by
    rintro rfl
    simp [stringCalls] at hnr
  have hres : Reserves b ctx nr :=
    ⟨hcase, hopen, fun hpass => hioctl (Option.some.inj (hcase.symm.trans hpass.2.1))⟩
  rw [sysEnterMultiplexer_of_reserves hsel hres] at he
  obtain ⟨old, hsub⟩ := Prog.produce_submissions (afterSubmit_quiet nr) he hroom
  constructor
  · rintro ⟨ev, hev, hreported⟩ i hi
    have hfill : fill (tracedPid entry ctx) ctx nr old = some ev := by
      simpa using hsub.symm.trans hev
    by_cases hread : ctx.mem.read maxBufSize (ctx.args i) = none
    · right
      by_cases hmount : nr = .nrMount
      · rw [fill_eventStrings hfill, List.map_inj_left] at hreported
        have hstr := Option.some.inj (hreported i hi)
        rw [userString_of_unreadable hread] at hstr
        refine ⟨hmount, List.eq_nil_of_length_eq_zero ?_⟩
        have hlen := congrArg List.length hstr
        simp only [List.length_nil, List.length_take, maxBufSize] at hlen
        omega
      · have hfails := checkedReadFails_of_unreadable hnr hmount hi hread
        rw [(fill_eq_none_iff hopen).mpr hfails] at hfill
        cases hfill
    · exact .inl hread
  · intro hcond
    have hfill : fill (tracedPid entry ctx) ctx nr old ≠ none := by
      rw [ne_eq, fill_eq_none_iff hopen]
      rintro ⟨i, hi, hread⟩
      have hmem := SyscallNr.checkedString_mem hi
      rcases hcond i hmem with hsome | ⟨rfl, -⟩
      · exact hsome hread
      · cases hi
    obtain ⟨ev, hev⟩ := Option.ne_none_iff_exists'.mp hfill
    refine ⟨ev, by rw [hsub, hev, Option.toList_some], ?_⟩
    rw [fill_eventStrings hev, List.map_inj_left]
    intro i hi
    congr 1
    by_cases hread : ctx.mem.read maxBufSize (ctx.args i) = none
    · obtain ⟨-, hnil⟩ := (hcond i hi).resolve_left (not_not_intro hread)
      rw [userString_of_unreadable hread, hnil, List.take_nil]
    · exact (hstrs i hi).userString_eq hread

/-- The string `a`. -/
def strA : CStr := ⟨ascii "a", by decide⟩

/-- The shell executes `a`, with readable memory around the name. -/
theorem strings_reported_iff_execve : ∃ l,
    (sysEnterMultiplexer buildX86 shellName (shellCallOn 59 [ascii "a"])).Exec l .ret ∧
    (StringsReported .nrExecve (fun _ => strA) l ↔ ∀ i ∈ SyscallNr.nrExecve.strings,
      (shellCallOn 59 [ascii "a"]).mem.read maxBufSize ((shellCallOn 59 [ascii "a"]).args i) ≠
        none ∨ SyscallNr.nrExecve = .nrMount ∧ strA.bytes = []) := by
  obtain ⟨l, he, hroom⟩ := Prog.exists_exec 0 staleEvent
    (sysEnterMultiplexer buildX86 shellName (shellCallOn 59 [ascii "a"]))
  have hstrs : ∀ i ∈ SyscallNr.nrExecve.strings,
      HasString (shellCallOn 59 [ascii "a"]).mem ((shellCallOn 59 [ascii "a"]).args i) strA := by
    intro i hi
    rw [SyscallNr.strings, List.mem_singleton] at hi
    rw [hi]
    exact (by decide +kernel : (pageMem [ascii "a"]).read 2 0 = some (ascii "a" ++ [0]))
  exact ⟨l, he, strings_reported_iff buildX86 shellName (shellCallOn 59 [ascii "a"]) .nrExecve
    (fun _ => strA) l (by decide) (by decide) (by decide) hstrs he hroom⟩

/-- Memory that ends after the string `a` and its NUL. -/
def lastTwoBytes : UserMem := fun addr =>
  if addr = 4094 then some 97 else if addr = 4095 then some 0 else none

/-- The shell executes `a`, and nothing can be read after the name. -/
def edgeCall : SysEnter := { shellCall 59 fun _ => 4094 with mem := lastTwoBytes }

/-- A readable name is not reported. -/
theorem readable_string_lost :
    ¬ ∀ (b : Build) (entry : ProgramName) (ctx : SysEnter) (nr : SyscallNr) (strs : Fin 6 → CStr)
      (l : List (Act SyscallEvent Effect)), b.case ctx.id = some nr → nr ∈ stringCalls →
      Selected entry ctx → (∀ i ∈ nr.strings, HasString ctx.mem (ctx.args i) (strs i)) →
      (sysEnterMultiplexer b entry ctx).Exec l .ret → Act.reserve none ∉ l →
      StringsReported nr strs l := by
  intro h
  have hread : edgeCall.mem.read maxBufSize (edgeCall.args 0) = none := by decide +kernel
  have hsel : Selected shellName edgeCall := by decide
  have hres : Reserves buildX86 edgeCall .nrExecve :=
    reserves_of_case rfl (by decide) (by decide)
  have hnone : fill (tracedPid shellName edgeCall) edgeCall .nrExecve staleEvent = none :=
    (fill_eq_none_iff (by decide)).mpr ⟨0, rfl, hread⟩
  have hexec : (sysEnterMultiplexer buildX86 shellName edgeCall).Exec
      [.reserve (some (0, staleEvent)), .discard 0] .ret := by
    rw [sysEnterMultiplexer_of_reserves hsel hres]
    refine .step (.reserve (some (0, staleEvent))) ?_
    simp only [hnone]
    exact .step .discard .refl
  have hstrs : ∀ i ∈ SyscallNr.nrExecve.strings,
      HasString edgeCall.mem (edgeCall.args i) strA := by
    intro i _
    exact (by decide +kernel : lastTwoBytes.read 2 4094 = some (ascii "a" ++ [0]))
  obtain ⟨ev, hsub, -⟩ := h buildX86 shellName edgeCall .nrExecve (fun _ => strA) _ hres.1
    (by decide) hsel hstrs hexec (by simp)
  cases hsub

end EPtracer
