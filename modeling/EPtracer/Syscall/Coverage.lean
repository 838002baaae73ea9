import EPtracer.Syscall.Labels

/-!
# What is reported, and of whom

Every case of the switch of `sys_enter_multiplexer` stands for a call that is
monitored, and every event carries the PID of the process that made the call.
Each has one arm that is different from the others.

* The arm of `open` reserves no record.  It writes to the kernel's trace, and
  the consumer never hears of the call (`covered_iff`).
* The arm of `ptrace` takes the PID of its event from an argument of the call,
  which names the process the call is about (`attributed_iff`).

`SyscallNr.strings` and `SyscallNr.flags` are read off the signatures of the
calls, and not off the arms.
-/

namespace EPtracer

open CText RingBuffer

variable {b : Build} {entry : ProgramName} {ctx : SysEnter}

/-! ## The report of a call -/

/-- The family of calls a constant belongs to. -/
def SyscallNr.family : SyscallNr → String
  | .nrPtrace => "ptrace" | .nrRead => "read" | .nrExecve => "execve" | .nrFork => "fork"
  | .nrClone => "clone" | .nrMprotect => "mprotect" | .nrOpenat => "openat" | .nrOpen => "open"
  | .nrMmap => "mmap" | .nrWrite => "write" | .nrChown => "chown" | .nrMount => "mount"
  | .nrUmount2 | .nrUmount => "umount" | .nrIoctl => "ioctl" | .nrSetuid => "setuid"
  | .nrSetgid => "setgid" | .nrCapset => "capset" | .nrPrctl => "prctl" | .nrKeyctl => "keyctl"

/-- The arguments that point to strings. -/
def SyscallNr.strings : SyscallNr → List (Fin 6)
  | .nrExecve | .nrOpen | .nrChown | .nrUmount2 | .nrUmount => [0]
  | .nrOpenat => [1]
  | .nrMount => [0, 1, 2]
  | _ => []

/-- The name of such an argument. -/
def SyscallNr.stringKey : SyscallNr → Fin 6 → String
  | .nrMount, 0 => "source"
  | .nrMount, 2 => "fstype"
  | .nrMount, _ | .nrUmount2, _ | .nrUmount, _ => "target"
  | _, _ => "filename"

/-- The arguments that are flags. -/
def SyscallNr.flags : SyscallNr → List (Fin 6)
  | .nrClone => [0]
  | .nrOpen | .nrUmount2 | .nrUmount => [1]
  | .nrOpenat => [2]
  | .nrMmap | .nrMount => [3]
  | _ => []

/-- A line reports a call: it names the family, and shows the strings and the
flags under their names. -/
structure Line.Reports (line : Line) (ctx : SysEnter) (nr : SyscallNr) : Prop where
  name : ∃ ty, nr.eventType = some ty ∧ line.name = ty.name
  /-- The line of `ioctl` has a word in front of the name. -/
  family : ascii nr.family <:+ ascii line.name
  strings : ∀ i ∈ nr.strings,
    (nr.stringKey i, LabelValue.str (userString ctx.mem (ctx.args i))) ∈ line.labels
  flags : ∀ i ∈ nr.flags, ("flags", LabelValue.int (ctx.args i)) ∈ line.labels ∨
    ("flags", LabelValue.hex (ctx.args i)) ∈ line.labels

/-- An execution submits one event, and the handler prints a line that reports
the call. -/
def Covered (ctx : SysEnter) (nr : SyscallNr) (l : List (Act SyscallEvent Effect)) : Prop :=
  ∃ ev, submissions l = [ev] ∧ ∀ microseconds, ∃ line : Line,
    line.microseconds = microseconds ∧ line.Reports ctx nr ∧
      syscallEventHandler ev microseconds = some (line.text ++ [10])

/-- All the reads of strings succeed. -/
def StringsReadable (ctx : SysEnter) (nr : SyscallNr) : Prop :=
  ∀ i ∈ nr.strings, ctx.mem.read maxBufSize (ctx.args i) ≠ none

theorem SyscallNr.checkedString_mem {nr : SyscallNr} {i : Fin 6}
    (h : nr.checkedString = some i) : i ∈ nr.strings := by
  cases nr <;> cases h <;> exact List.mem_singleton.mpr rfl

theorem StringsReadable.not_checkedReadFails {nr : SyscallNr} (h : StringsReadable ctx nr) :
    ¬ CheckedReadFails ctx nr := by
  rintro ⟨i, hi, hread⟩
  exact h i (SyscallNr.checkedString_mem hi) hread

theorem SyscallNr.family_suffix {nr : SyscallNr} {ty : SyscallEventType}
    (hty : nr.eventType = some ty) : ascii nr.family <:+ ascii ty.name := by
  cases nr <;> cases hty <;> decide +kernel

/-- The labels of a call show what they should. -/
theorem reports_callLabels {nr : SyscallNr} {ty : SyscallEventType} (hty : nr.eventType = some ty)
    (pid : Int32) (microseconds : Int64) :
    (⟨pid, ty.name, callLabels ctx ty, microseconds⟩ : Line).Reports ctx nr where
  name := ⟨ty, hty, rfl⟩
  family := SyscallNr.family_suffix hty
  strings := by
    intro i hi
    cases nr <;> cases hty <;> simp only [SyscallNr.strings, List.not_mem_nil,
      List.mem_cons, or_false] at hi
    case nrMount =>
      rcases hi with rfl | rfl | rfl
      · simp [callLabels, SyscallNr.stringKey]
      · simp [callLabels, SyscallNr.stringKey]
      · simp [callLabels, SyscallNr.stringKey]
    all_goals
      subst hi
      simp [callLabels, SyscallNr.stringKey]
  flags := by
    intro i hi
    cases nr <;> cases hty <;> simp only [SyscallNr.flags, List.not_mem_nil,
      List.mem_singleton] at hi
    all_goals
      subst hi
      simp [callLabels]

/-! ## Which calls are covered -/

/-- The arm of a call that reserves no record submits nothing. -/
theorem submissions_of_not_reserves (h : ∀ nr, ¬ Reserves b ctx nr)
    {l : List (Act SyscallEvent Effect)} {q : Prog SyscallEvent Effect}
    (he : (sysEnterMultiplexer b entry ctx).Exec l q) : submissions l = [] := by
  have hquiet : (sysEnterMultiplexer b entry ctx).Quiet := by
    have hcases := sysEnterMultiplexer_cases b entry ctx
    -- as in `sysEnterMultiplexer_oneShot`
    generalize sysEnterMultiplexer b entry ctx = p at hcases ⊢
    rcases hcases with ⟨-, rfl⟩ | ⟨-, nr, hres, -⟩ | ⟨-, -, rfl | ⟨fmt, args, rfl⟩⟩
    · trivial
    · exact absurd hres (h nr)
    · trivial
    · trivial
  exact hquiet.submissions he

/-- **Coverage.**  With room in the buffer, a call of a selected task is
reported exactly if it is not `open`. -/
theorem covered_iff (b : Build) (entry : ProgramName) (ctx : SysEnter) (nr : SyscallNr)
    (l : List (Act SyscallEvent Effect)) (hbuild : b.isAndroid = false)
    (hcase : b.case ctx.id = some nr) (hsel : Selected entry ctx) (hread : StringsReadable ctx nr)
    (he : (sysEnterMultiplexer b entry ctx).Exec l .ret) (hroom : Act.reserve none ∉ l) :
    Covered ctx nr l ↔ nr ≠ .nrOpen := by
  constructor
  · rintro ⟨ev, hsub, -⟩ rfl
    have hnone : submissions l = [] := by
      refine submissions_of_not_reserves (fun nr hres => hres.2.1 ?_) he
      exact Option.some.inj (hres.1.symm.trans hcase)
    rw [hnone] at hsub
    cases hsub
  · intro hopen
    have hres := reserves_of_case hbuild hcase hopen
    rw [sysEnterMultiplexer_of_reserves hsel hres] at he
    obtain ⟨old, hsub⟩ := Prog.produce_submissions (afterSubmit_quiet nr) he hroom
    cases hfill : fill (tracedPid entry ctx) ctx nr old with
    | none =>
        have hfails := checkedReadFails_of_fill_eq_none hfill hopen
        exact absurd hfails hread.not_checkedReadFails
    | some ev =>
        obtain ⟨ty, hty, hcode, hlabels⟩ := fill_labels hfill
        have hof := SyscallEventType.ofCode_of_eq hcode
        refine ⟨ev, by rw [hsub, hfill, Option.toList_some], fun microseconds => ?_⟩
        exact ⟨⟨ev.pid, ty.name, callLabels ctx ty, microseconds⟩, rfl,
          reports_callLabels hty ev.pid microseconds, syscallEventHandler_eq hof hlabels _⟩

/-- The shell makes a call, and all its memory is readable. -/
def readableCall (id : Int64) : SysEnter :=
  { shellCall id fun _ => 0 with mem := fun _ => some 0 }

theorem readableCall_read (id : Int64) (n : Nat) (addr : UInt64) :
    (readableCall id).mem.read n addr = some (List.replicate n 0) := by
  induction n generalizing addr with
  | zero => rfl
  | succ n ih =>
      have hbyte : (readableCall id).mem addr = some 0 := rfl
      simp only [UserMem.read, hbyte, ih, List.replicate_succ]

theorem readableCall_stringsReadable (id : Int64) (nr : SyscallNr) :
    StringsReadable (readableCall id) nr := by
  intro i _ hnone
  rw [readableCall_read] at hnone
  cases hnone

theorem covered_iff_fork :
    Covered (readableCall 57) .nrFork
        [.reserve (some (0, staleEvent)),
          .submit 0 { staleEvent with type := SyscallEventType.fork.code, pid := 7 }] ↔
      SyscallNr.nrFork ≠ .nrOpen :=
  covered_iff buildX86 shellName (readableCall 57) .nrFork _ rfl (by decide) (by decide)
    (readableCall_stringsReadable 57 .nrFork)
    (.step (.reserve (some (0, staleEvent))) (.step .submit .refl)) (by simp)

/-- The shell calls `open`, and no event is submitted. -/
theorem open_not_covered :
    ¬ ∀ (b : Build) (entry : ProgramName) (ctx : SysEnter) (nr : SyscallNr)
      (l : List (Act SyscallEvent Effect)), b.isAndroid = false → b.case ctx.id = some nr →
      Selected entry ctx → StringsReadable ctx nr →
      (sysEnterMultiplexer b entry ctx).Exec l .ret → Act.reserve none ∉ l →
      Covered ctx nr l := by
  intro h
  have hsel : Selected shellName (readableCall 2) := by decide
  have hexec : (sysEnterMultiplexer buildX86 shellName (readableCall 2)).Exec
      [.emit (.printk "open(filename=\"%s\", flags=\"%lu\", mode=\"%lu\")"
        [.str [], .ulong 0, .ulong 0])] .ret := by
    have hread := readableCall_read 2 maxBufSize ((readableCall 2).args 0)
    have hcase : buildX86.case (readableCall 2).id = some .nrOpen := by decide
    rw [sysEnterMultiplexer_of_case hsel hcase]
    simp only [arm, probeReadUser, hread]
    exact .step .emit .refl
  have hcovered := h buildX86 shellName (readableCall 2) .nrOpen _ rfl (by decide) hsel
    (readableCall_stringsReadable 2 .nrOpen) hexec (by simp)
  obtain ⟨ev, hsub, -⟩ := hcovered
  cases hsub

/-! ## Whom an event is about -/

/-- An event carries the PID that was selected, and its line starts with it. -/
structure Attributed (entry : ProgramName) (ctx : SysEnter) (ev : SyscallEvent) : Prop where
  /-- The caller is traced. -/
  nonzero : targetPid entry ctx.task ≠ 0
  /-- The PID is that of the caller. -/
  tgid : targetPid entry ctx.task = ctx.task.tgid
  /-- The event has it. -/
  pid : ev.pid = (targetPid entry ctx.task).toInt32
  /-- The line has it. -/
  line : ∀ microseconds, ∃ line : Line, line.pid = (targetPid entry ctx.task).toInt32 ∧
    syscallEventHandler ev microseconds = some (line.text ++ [10])

/-- **Attribution.**  An event is about the traced process exactly if it does
not report `ptrace`, or the call was about the process itself. -/
theorem attributed_iff (b : Build) (entry : ProgramName) (ctx : SysEnter) (ev : SyscallEvent)
    (h : Submits b entry ctx ev) :
    Attributed entry ctx ev ↔
      b.case ctx.id ≠ some .nrPtrace ∨ toInt (ctx.args 1) = ctx.task.tgid.toInt32 := by
  obtain ⟨hsel, nr, old, hres, hfill⟩ := h.filled
  have hpid := fill_pid hfill
  have htgid := targetPid_eq_tgid hsel
  rw [hres.1, ne_eq, Option.some.injEq, ← htgid]
  constructor
  · intro ha
    by_cases hnr : nr = .nrPtrace
    · rw [if_pos hnr] at hpid
      exact .inr (hpid.symm.trans ha.pid)
    · exact .inl hnr
  · intro hcase
    have hev : ev.pid = (targetPid entry ctx.task).toInt32 := by
      rw [hpid]
      split
      next hnr => exact hcase.resolve_left (not_not_intro hnr)
      next => rfl
    obtain ⟨ty, -, hcode, -⟩ := fill_labels hfill
    exact ⟨hsel, htgid, hev, fun microseconds =>
      ⟨⟨ev.pid, ty.name, callLabels ctx ty, microseconds⟩, hev, h.handler_eq hcode microseconds⟩⟩

theorem attributed_iff_read :
    Attributed shellName (shellCall 0 fun _ => 3)
        { staleEvent with
          type := 1, pid := 7, args := copyArgs [0, 1, 2] (fun _ => 3) staleEvent.args } ↔
      buildX86.case 0 ≠ some .nrPtrace ∨ toInt 3 = shell.tgid.toInt32 :=
  attributed_iff buildX86 shellName (shellCall 0 fun _ => 3) _
    (submits_of_fill .nrRead staleEvent (by decide)
      (reserves_of_case rfl (by decide) (by decide)) rfl)

/-- The shell, which has PID 7, calls `ptrace` on process 3. -/
theorem ptrace_misattributed :
    ¬ ∀ (b : Build) (entry : ProgramName) (ctx : SysEnter) (ev : SyscallEvent),
      Submits b entry ctx ev → Attributed entry ctx ev := by
  intro h
  have hsub : Submits buildX86 shellName (shellCall 101 fun _ => 3)
      { staleEvent with
        type := 0, pid := 3, args := copyArgs [0, 1, 2, 3] (fun _ => 3) staleEvent.args } :=
    submits_of_fill .nrPtrace staleEvent (by decide)
      (reserves_of_case rfl (by decide) (by decide)) rfl
  have hpid := (h _ _ _ _ hsub).pid
  exact absurd hpid (by decide)

end EPtracer
