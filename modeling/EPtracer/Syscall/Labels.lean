import EPtracer.Syscall.Handler
import EPtracer.Syscall.Stream

/-!
# Labels and arguments

`sysEnterMultiplexer` fills an event in one file and `syscallEventHandler`
reads it in another.  Each goes by the type of the event, and each touches only
some of its fields.  The rest of a record keeps what an earlier event left in
it.

`callLabels` says what the labels of a call should be, from the call alone.
`fill_labels` says that the fields an arm fills are the ones the handler reads,
so nothing of an earlier event is ever printed.
-/

namespace EPtracer

open CText RingBuffer

/-- The labels of the line for a call, by the type of its event. -/
def callLabels (ctx : SysEnter) (ty : SyscallEventType) : Labels :=
  let int i := LabelValue.int (ctx.args i)
  let ulong i := LabelValue.ulong (ctx.args i)
  let hex i := LabelValue.hex (ctx.args i)
  let ptr i := LabelValue.ptr (ctx.args i)
  let str i := LabelValue.str (userString ctx.mem (ctx.args i))
  match ty with
  | .ptrace => [("request", int 0), ("pid", int 1), ("addr", ptr 2), ("data", ptr 3)]
  | .read | .write => [("fd", int 0), ("buf", ptr 1), ("count", ulong 2)]
  | .execve => [("filename", str 0), ("argv", ptr 1), ("envp", ptr 2)]
  | .fork => []
  | .clone =>
      [("flags", hex 0), ("child_stack", ptr 1), ("parent_tid", ptr 2), ("child_tid", ptr 3)]
  | .mprotect => [("addr", ptr 0), ("len", ulong 1), ("prot", int 2)]
  | .openat => [("fd", int 0), ("filename", str 1), ("flags", int 2), ("mode", int 3)]
  | .mmap => [("addr", ptr 0), ("length", ulong 1), ("prot", int 2), ("flags", int 3),
      ("fd", int 4), ("off", ulong 5)]
  | .chown => [("filename", str 0), ("uid", int 1), ("gid", int 2)]
  | .mount => [("source", str 0), ("target", str 1), ("fstype", str 2), ("flags", hex 3),
      ("data", ptr 4)]
  | .umount => [("target", str 0), ("flags", int 1)]
  | .ioctl => [("fd", int 0), ("cmd", ulong 1), ("arg", ulong 2)]
  | .setuid => [("uid", int 0)]
  | .setgid => [("gid", int 0)]
  | .capset => [("hdr", ptr 0), ("data", ptr 1)]
  | .prctl => [("option", int 0), ("arg2", ulong 1), ("arg3", ulong 2), ("arg4", ulong 3),
      ("arg5", ulong 4)]
  | .keyctl => [("cmd", int 0), ("arg2", ulong 1), ("arg3", ulong 2), ("arg4", ulong 3),
      ("arg5", ulong 4)]

/-- The PID in the line for a call: that of the caller, and for `ptrace` the second
argument. -/
def callPid (ctx : SysEnter) : SyscallEventType → Int32
  | .ptrace => toInt (ctx.args 1)
  | _ => ctx.task.tgid.toInt32

theorem fill_pid {ctx : SysEnter} {pid : Int32} {nr : SyscallNr} {old ev : SyscallEvent}
    (h : fill pid ctx nr old = some ev) :
    ev.pid = if nr = .nrPtrace then toInt (ctx.args 1) else pid := by
  cases nr <;>
    simp only [fill, Option.some.injEq, Option.bind_eq_bind, Option.bind_eq_some_iff,
      reduceCtorEq] at h
  case nrExecve | nrOpenat | nrChown | nrUmount2 | nrUmount =>
    obtain ⟨str1, -, rfl⟩ := h
    rfl
  all_goals
    subst h
    rfl

/-- What an arm fills is what the handler reads, whatever the record held. -/
theorem fill_labels {pid : Int32} {ctx : SysEnter} {nr : SyscallNr} {old ev : SyscallEvent}
    (h : fill pid ctx nr old = some ev) :
    ∃ ty, nr.eventType = some ty ∧ ev.type = ty.code ∧
      eventLabels ev ty = some (callLabels ctx ty) := by
  cases nr <;>
    simp only [fill, Option.some.injEq, Option.bind_eq_bind, Option.bind_eq_some_iff,
      reduceCtorEq] at h
  case nrExecve | nrOpenat | nrChown | nrUmount2 | nrUmount =>
    obtain ⟨str1, hstr, rfl⟩ := h
    refine ⟨_, rfl, rfl, ?_⟩
    simp [eventLabels, callLabels, copyArgs, fetch_cString hstr]
  case nrMount =>
    subst h
    refine ⟨_, rfl, rfl, ?_⟩
    simp [eventLabels, callLabels, copyArgs, fetchUnchecked_cString]
  all_goals
    subst h
    exact ⟨_, rfl, rfl, rfl⟩

theorem Submits.labels {b : Build} {entry : ProgramName} {ctx : SysEnter} {ev : SyscallEvent}
    (h : Submits b entry ctx ev) :
    ∃ nr ty, b.case ctx.id = some nr ∧ nr.eventType = some ty ∧ ev.type = ty.code ∧
      eventLabels ev ty = some (callLabels ctx ty) := by
  obtain ⟨-, nr, old, hres, hfill⟩ := h.filled
  obtain ⟨ty, hty, hcode, hlabels⟩ := fill_labels hfill
  exact ⟨nr, ty, hres.1, hty, hcode, hlabels⟩

theorem Submits.pid_eq {b : Build} {entry : ProgramName} {ctx : SysEnter} {ev : SyscallEvent}
    (h : Submits b entry ctx ev) {ty : SyscallEventType} (hty : ev.type = ty.code) :
    ev.pid = callPid ctx ty := by
  obtain ⟨hsel, nr, old, hres, hfill⟩ := h.filled
  obtain ⟨ty', hty', hcode, -⟩ := fill_labels hfill
  obtain rfl := SyscallEventType.code_injective (hty.symm.trans hcode)
  rw [fill_pid hfill, tracedPid, targetPid_eq_tgid hsel]
  cases nr <;> cases hty' <;> rfl

theorem Submits.labels_of_type {b : Build} {entry : ProgramName} {ctx : SysEnter}
    {ev : SyscallEvent} (h : Submits b entry ctx ev) {ty : SyscallEventType}
    (hty : ev.type = ty.code) : eventLabels ev ty = some (callLabels ctx ty) := by
  obtain ⟨-, ty', -, -, hcode, hlabels⟩ := h.labels
  obtain rfl := SyscallEventType.code_injective (hty.symm.trans hcode)
  exact hlabels

theorem Submits.handler_eq {b : Build} {entry : ProgramName} {ctx : SysEnter}
    {ev : SyscallEvent} (h : Submits b entry ctx ev) {ty : SyscallEventType}
    (hty : ev.type = ty.code) (microseconds : Int64) :
    syscallEventHandler ev microseconds =
      some ((⟨ev.pid, ty.name, callLabels ctx ty, microseconds⟩ : Line).text ++ [10]) :=
  syscallEventHandler_eq (SyscallEventType.ofCode_of_eq hty) (h.labels_of_type hty) microseconds

theorem Submits.line_fits {b : Build} {entry : ProgramName} {ctx : SysEnter}
    {ev : SyscallEvent} (h : Submits b entry ctx ev) {ty : SyscallEventType}
    (hty : ev.type = ty.code) (microseconds : Int64) :
    (⟨ev.pid, ty.name, callLabels ctx ty, microseconds⟩ : Line).Fits :=
  ⟨ty.fits_name, eventLabels_fits (h.labels_of_type hty)⟩

/-- The line of a submitted event has a known type, and each label shows the
argument of the call it is named after. -/
theorem rendered_from_call (b : Build) (entry : ProgramName) (ctx : SysEnter) (ev : SyscallEvent)
    (microseconds : Int64) (h : Submits b entry ctx ev) :
    ∃ nr ty, b.case ctx.id = some nr ∧ nr.eventType = some ty ∧
      SyscallEventType.ofCode ev.type = some ty ∧
      syscallEventHandler ev microseconds =
        some ((⟨ev.pid, ty.name, callLabels ctx ty, microseconds⟩ : Line).text ++ [10]) := by
  obtain ⟨nr, ty, hcase, hty, hcode, -⟩ := h.labels
  exact ⟨nr, ty, hcase, hty, SyscallEventType.ofCode_of_eq hcode, h.handler_eq hcode microseconds⟩

theorem rendered_from_call_read :
    ∃ nr ty, buildX86.case 0 = some nr ∧ nr.eventType = some ty ∧
      SyscallEventType.ofCode 1 = some ty ∧
      syscallEventHandler
          { staleEvent with
            type := 1, pid := 7, args := copyArgs [0, 1, 2] (fun _ => 3) staleEvent.args } 5 =
        some ((⟨7, ty.name, callLabels (shellCall 0 fun _ => 3) ty, 5⟩ : Line).text ++ [10]) :=
  rendered_from_call buildX86 shellName (shellCall 0 fun _ => 3) _ 5
    (submits_of_fill .nrRead staleEvent (by decide)
      (reserves_of_case rfl (by decide) (by decide)) rfl)

end EPtracer
