import EPtracer.Lib.Printf
import EPtracer.Lib.Producer
import EPtracer.Syscall.Event
import EPtracer.Target.Selection

/-!
# The program on `sys_enter`

`sysEnterMultiplexer` is the BPF program as a producer (`RingBuffer.Prog`).
Every arm that reports its call has one shape: reserve a record, fill it, and
submit it, or discard it when a string could not be read.  `fill` is what the
arms write, in the order of the switch.  `arm` is what the arms do around it.
Three of them differ from the rest.  `ptrace` sends a signal after its record,
`open` reports to the kernel's trace and reserves nothing, and on Android
`ioctl` passes over commands that are not the binder's.

`sysEnterMultiplexer_cases` says once what the program is for a call.  What
follows about events, signals and discarded records is read off it.
-/

namespace EPtracer

open CText RingBuffer

/-! ## The context of a call -/

/-- The user memory of a task: the byte at each readable address. -/
abbrev UserMem := UInt64 → Option UInt8

/-- The `n` bytes from an address, if all of them can be read. -/
def UserMem.read (mem : UserMem) : Nat → UInt64 → Option Bytes
  | 0, _ => some []
  | n + 1, addr =>
      match mem addr, UserMem.read mem n (addr + 1) with
      | some c, some b => some (c :: b)
      | _, _ => none

theorem UserMem.length_of_read {mem : UserMem} : ∀ {n : Nat} {addr : UInt64} {b : Bytes},
    mem.read n addr = some b → b.length = n
  | 0, _, _, h => by
      cases h
      rfl
  | n + 1, addr, b, h => by
      simp only [UserMem.read] at h
      split at h
      next c b' _ hb =>
        cases h
        simp [UserMem.length_of_read hb]
      next => cases h

/-- `bpf_probe_read_user(dst, size, addr)`: its result and `dst` after it.  A
failed read returns `-EFAULT` and clears `dst`. -/
def probeReadUser {k : Nat} (mem : UserMem) (dst : Buf k) (size : Nat) (addr : UInt64) :
    Int64 × Buf k :=
  match mem.read size addr with
  | some b => (0, dst.write b)
  | none => (-14, dst.write (List.replicate size 0))

/-- One hit of the tracepoint: `struct trace_event_raw_sys_enter`, the task it
is in, and that task's memory. -/
structure SysEnter where
  task : Task
  id : Int64
  args : Fin 6 → UInt64
  /-- What `bpf_probe_read_user` can see. -/
  mem : UserMem

/-- A call of the shell, in which nothing can be read. -/
def shellCall (id : Int64) (args : Fin 6 → UInt64) : SysEnter where
  task := shell
  id := id
  args := args
  mem := fun _ => none

/-- What the program does outside the ring buffer. -/
inductive Effect where
  | sendSignal (sig : Nat)
  | printk (fmt : String) (args : List CArg)

/-- `BINDER_WRITE_READ`. -/
def binderWriteRead : UInt64 := 0xc0306201

/-- `BINDER_SET_CONTEXT_MGR`. -/
def binderSetContextMgr : UInt64 := 0x40046207

/-! ## The arms -/

/-- `dst[i] = src[i]` for each listed `i`. -/
def copyArgs (is : List (Fin 6)) (src dst : Fin 6 → UInt64) : Fin 6 → UInt64 :=
  fun i => if i ∈ is then src i else dst i

/-- Read a string argument into `dst` and terminate it, or give up when the read
fails. -/
def fetch (mem : UserMem) (dst : EventString) (addr : UInt64) : Option EventString :=
  let (ret, str) := probeReadUser mem dst maxBufSize addr
  if ret < 0 then none else some (str.set maxBufSize 0)

/-- Read a string argument into `dst` and terminate it, without looking at the
result of the read. -/
def fetchUnchecked (mem : UserMem) (dst : EventString) (addr : UInt64) : EventString :=
  (probeReadUser mem dst maxBufSize addr).2.set maxBufSize 0

/-- What the arm of each case writes into the record it reserved.  The arm
discards the record where the result is `none`.  The arm of `open` has no
record. -/
def fill (pid : Int32) (ctx : SysEnter) : SyscallNr → SyscallEvent → Option SyscallEvent
  | .nrPtrace, ev => some { ev with
      type := SyscallEventType.ptrace.code
      pid := toInt (ctx.args 1)
      args := copyArgs [0, 1, 2, 3] ctx.args ev.args }
  | .nrRead, ev => some { ev with
      type := SyscallEventType.read.code
      pid
      args := copyArgs [0, 1, 2] ctx.args ev.args }
  | .nrExecve, ev => do
      let str1 ← fetch ctx.mem ev.str1 (ctx.args 0)
      some { ev with
        type := SyscallEventType.execve.code
        pid
        args := copyArgs [1, 2] ctx.args ev.args
        str1 }
  | .nrFork, ev => some { ev with type := SyscallEventType.fork.code, pid }
  | .nrClone, ev => some { ev with
      type := SyscallEventType.clone.code
      pid
      args := copyArgs [0, 1, 2, 3] ctx.args ev.args }
  | .nrMprotect, ev => some { ev with
      type := SyscallEventType.mprotect.code
      pid
      args := copyArgs [0, 1, 2] ctx.args ev.args }
  | .nrOpenat, ev => do
      let str1 ← fetch ctx.mem ev.str1 (ctx.args 1)
      some { ev with
        type := SyscallEventType.openat.code
        pid
        args := copyArgs [0, 2, 3] ctx.args ev.args
        str1 }
  | .nrOpen, _ => none
  | .nrMmap, ev => some { ev with
      type := SyscallEventType.mmap.code
      pid
      args := copyArgs [0, 1, 2, 3, 4, 5] ctx.args ev.args }
  | .nrWrite, ev => some { ev with
      type := SyscallEventType.write.code
      pid
      args := copyArgs [0, 1, 2] ctx.args ev.args }
  | .nrChown, ev => do
      let str1 ← fetch ctx.mem ev.str1 (ctx.args 0)
      some { ev with
        type := SyscallEventType.chown.code
        pid
        args := copyArgs [1, 2] ctx.args ev.args
        str1 }
  | .nrMount, ev => some { ev with
      type := SyscallEventType.mount.code
      pid
      args := copyArgs [3, 4] ctx.args ev.args
      str1 := fetchUnchecked ctx.mem ev.str1 (ctx.args 0)
      str2 := fetchUnchecked ctx.mem ev.str2 (ctx.args 1)
      str3 := fetchUnchecked ctx.mem ev.str3 (ctx.args 2) }
  | .nrUmount2, ev | .nrUmount, ev => do
      let str1 ← fetch ctx.mem ev.str1 (ctx.args 0)
      some { ev with
        type := SyscallEventType.umount.code
        pid
        args := copyArgs [1] ctx.args ev.args
        str1 }
  | .nrIoctl, ev => some { ev with
      type := SyscallEventType.ioctl.code
      pid
      args := copyArgs [0, 1, 2] ctx.args ev.args }
  | .nrSetuid, ev => some { ev with
      type := SyscallEventType.setuid.code
      pid
      args := copyArgs [0] ctx.args ev.args }
  | .nrSetgid, ev => some { ev with
      type := SyscallEventType.setgid.code
      pid
      args := copyArgs [0] ctx.args ev.args }
  | .nrCapset, ev => some { ev with
      type := SyscallEventType.capset.code
      pid
      args := copyArgs [0, 1] ctx.args ev.args }
  | .nrPrctl, ev => some { ev with
      type := SyscallEventType.prctl.code
      pid
      args := copyArgs [0, 1, 2, 3, 4] ctx.args ev.args }
  | .nrKeyctl, ev => some { ev with
      type := SyscallEventType.keyctl.code
      pid
      args := copyArgs [0, 1, 2, 3, 4] ctx.args ev.args }

/-- The arm of each case. -/
def arm (b : Build) (pid : Int32) (ctx : SysEnter) : SyscallNr → Prog SyscallEvent Effect
  | .nrPtrace => .produce (fill pid ctx .nrPtrace) (.emit (.sendSignal 9) .ret)
  | .nrOpen =>
      let flags := (ctx.args 1).toUInt32
      let mode := (ctx.args 2).toUInt32
      let (ret, _) := probeReadUser ctx.mem (Buf.zero (maxBufSize + 1)) maxBufSize (ctx.args 0)
      if ret < 0 then .ret
      else
        -- the filename that was read is not the one that is printed
        .emit (.printk "open(filename=\"%s\", flags=\"%lu\", mode=\"%lu\")"
          [.str [], .ulong flags.toUInt64, .ulong mode.toUInt64]) .ret
  | .nrIoctl =>
      let cmd := ctx.args 1
      if b.isAndroid && cmd != binderWriteRead && cmd != binderSetContextMgr then .ret
      else .produce (fill pid ctx .nrIoctl) .ret
  | nr => .produce (fill pid ctx nr) .ret

/-- `sys_enter_multiplexer(ctx)`, with `entry` in `program_map`. -/
def sysEnterMultiplexer (b : Build) (entry : ProgramName) (ctx : SysEnter) :
    Prog SyscallEvent Effect :=
  let pid := (targetPid entry ctx.task).toInt32
  if pid = 0 then .ret
  else
    match b.case ctx.id with
    | some nr => arm b pid ctx nr
    | none => .ret

/-! ## What the arms write -/

/-- The string a reader finds at a user address: up to its NUL, or up to
`MAX_BUF_SIZE` bytes.  It is empty when these bytes cannot all be read. -/
def userString (mem : UserMem) (addr : UInt64) : Bytes :=
  match mem.read maxBufSize addr with
  | some b => b.takeWhile (· ≠ 0)
  | none => []

theorem fetch_eq_none_iff (mem : UserMem) (dst : EventString) (addr : UInt64) :
    fetch mem dst addr = none ↔ mem.read maxBufSize addr = none := by
  unfold fetch probeReadUser
  cases mem.read maxBufSize addr <;> simp

theorem fetch_cString {mem : UserMem} {dst str : EventString} {addr : UInt64}
    (h : fetch mem dst addr = some str) : cString str.bytes = some (userString mem addr) := by
  unfold fetch probeReadUser at h
  cases hr : mem.read maxBufSize addr with
  | none => simp [hr] at h
  | some b =>
      have hb := Buf.bytes_write_set dst (UserMem.length_of_read hr)
      simp [hr] at h
      rw [← h, hb, cString_append_zero, userString, hr]

theorem fetchUnchecked_cString (mem : UserMem) (dst : EventString) (addr : UInt64) :
    cString (fetchUnchecked mem dst addr).bytes = some (userString mem addr) := by
  unfold fetchUnchecked probeReadUser
  cases hr : mem.read maxBufSize addr with
  | none =>
      have hzero : (List.replicate maxBufSize (0 : UInt8)).length = maxBufSize := by simp
      have hb := Buf.bytes_write_set dst hzero
      simp only [hb, cString_append_zero, userString, hr]
      decide
  | some b =>
      have hb := Buf.bytes_write_set dst (UserMem.length_of_read hr)
      simp only [hb, cString_append_zero, userString, hr]

/-- The type of the event that reports a call.  `open` has none. -/
def SyscallNr.eventType : SyscallNr → Option SyscallEventType
  | .nrPtrace => some .ptrace
  | .nrRead => some .read
  | .nrExecve => some .execve
  | .nrFork => some .fork
  | .nrClone => some .clone
  | .nrMprotect => some .mprotect
  | .nrOpenat => some .openat
  | .nrOpen => none
  | .nrMmap => some .mmap
  | .nrWrite => some .write
  | .nrChown => some .chown
  | .nrMount => some .mount
  | .nrUmount2 | .nrUmount => some .umount
  | .nrIoctl => some .ioctl
  | .nrSetuid => some .setuid
  | .nrSetgid => some .setgid
  | .nrCapset => some .capset
  | .nrPrctl => some .prctl
  | .nrKeyctl => some .keyctl

/-- The argument whose string the arm reads and checks. -/
def SyscallNr.checkedString : SyscallNr → Option (Fin 6)
  | .nrExecve | .nrChown | .nrUmount2 | .nrUmount => some 0
  | .nrOpenat => some 1
  | _ => none

/-- The checked `bpf_probe_read_user` of the arm fails. -/
def CheckedReadFails (ctx : SysEnter) (nr : SyscallNr) : Prop :=
  ∃ i, nr.checkedString = some i ∧ ctx.mem.read maxBufSize (ctx.args i) = none

theorem fill_type {pid : Int32} {ctx : SysEnter} {nr : SyscallNr} {old ev : SyscallEvent}
    (h : fill pid ctx nr old = some ev) : ∃ ty, nr.eventType = some ty ∧ ev.type = ty.code := by
  cases nr <;>
    simp only [fill, Option.some.injEq, Option.bind_eq_bind, Option.bind_eq_some_iff,
      reduceCtorEq] at h
  case nrExecve | nrOpenat | nrChown | nrUmount2 | nrUmount =>
    obtain ⟨str1, -, rfl⟩ := h
    exact ⟨_, rfl, rfl⟩
  all_goals
    subst h
    exact ⟨_, rfl, rfl⟩

/-- An arm with a record gives it up only for a checked string it cannot read. -/
theorem checkedReadFails_of_fill_eq_none {pid : Int32} {ctx : SysEnter} {nr : SyscallNr}
    {old : SyscallEvent} (h : fill pid ctx nr old = none) (hopen : nr ≠ .nrOpen) :
    CheckedReadFails ctx nr := by
  cases nr <;>
    simp only [fill, reduceCtorEq, Option.bind_eq_bind, Option.bind_eq_none_iff, imp_false] at h
  case nrOpen => exact absurd rfl hopen
  case nrExecve | nrOpenat | nrChown | nrUmount2 | nrUmount =>
    refine ⟨_, rfl, (fetch_eq_none_iff ctx.mem old.str1 _).mp ?_⟩
    exact Option.eq_none_iff_forall_ne_some.mpr h

theorem fill_eq_none_iff {pid : Int32} {ctx : SysEnter} {nr : SyscallNr} {old : SyscallEvent}
    (hopen : nr ≠ .nrOpen) : fill pid ctx nr old = none ↔ CheckedReadFails ctx nr := by
  refine ⟨fun h => checkedReadFails_of_fill_eq_none h hopen, ?_⟩
  rintro ⟨i, hi, hread⟩
  have hfetch := (fetch_eq_none_iff ctx.mem old.str1 (ctx.args i)).mpr hread
  cases nr <;> cases hi <;> simp only [fill, hfetch, Option.bind_eq_bind, Option.bind_none]

/-! ## What the program is for a call -/

/-- `is_target_program` selects the task of the call. -/
def Selected (entry : ProgramName) (ctx : SysEnter) : Prop := targetPid entry ctx.task ≠ 0

instance (entry : ProgramName) (ctx : SysEnter) : Decidable (Selected entry ctx) :=
  inferInstanceAs (Decidable (_ ≠ _))

/-- On Android, an `ioctl` with a command that is not the binder's. -/
def PassedOver (b : Build) (ctx : SysEnter) : Prop :=
  b.isAndroid = true ∧ b.case ctx.id = some .nrIoctl ∧
    ctx.args 1 ≠ binderWriteRead ∧ ctx.args 1 ≠ binderSetContextMgr

/-- The arm of the call reserves a record. -/
def Reserves (b : Build) (ctx : SysEnter) (nr : SyscallNr) : Prop :=
  b.case ctx.id = some nr ∧ nr ≠ .nrOpen ∧ ¬ PassedOver b ctx

theorem reserves_of_case {b : Build} (hbuild : b.isAndroid = false) {ctx : SysEnter}
    {nr : SyscallNr} (hcase : b.case ctx.id = some nr) (hopen : nr ≠ .nrOpen) :
    Reserves b ctx nr :=
  ⟨hcase, hopen, fun hpass => Bool.false_ne_true (hbuild.symm.trans hpass.1)⟩

/-- What an arm does after it submitted its record. -/
def afterSubmit : SyscallNr → Prog SyscallEvent Effect
  | .nrPtrace => .emit (.sendSignal 9) .ret
  | _ => .ret

theorem afterSubmit_quiet (nr : SyscallNr) : (afterSubmit nr).Quiet := by
  cases nr <;> exact trivial

/-- The pid the program works with. -/
def tracedPid (entry : ProgramName) (ctx : SysEnter) : Int32 := (targetPid entry ctx.task).toInt32

theorem tracedPid_eq_zero_iff (entry : ProgramName) (ctx : SysEnter) :
    tracedPid entry ctx = 0 ↔ ¬ Selected entry ctx := by
  simp only [tracedPid, Selected, ne_eq, not_not]
  constructor
  · intro h
    exact congrArg Int32.toUInt32 h
  · intro h
    rw [h]
    rfl

theorem sysEnterMultiplexer_of_case {b : Build} {entry : ProgramName} {ctx : SysEnter}
    {nr : SyscallNr} (hsel : Selected entry ctx) (hcase : b.case ctx.id = some nr) :
    sysEnterMultiplexer b entry ctx = arm b (tracedPid entry ctx) ctx nr := by
  have hpid : tracedPid entry ctx ≠ 0 := by
    rw [ne_eq, tracedPid_eq_zero_iff, not_not]
    exact hsel
  have hprog : sysEnterMultiplexer b entry ctx =
      match b.case ctx.id with
      | some nr => arm b (tracedPid entry ctx) ctx nr
      | none => .ret := if_neg hpid
  rw [hprog, hcase]

theorem arm_of_reserves {b : Build} {ctx : SysEnter} {nr : SyscallNr} (pid : Int32)
    (h : Reserves b ctx nr) : arm b pid ctx nr = .produce (fill pid ctx nr) (afterSubmit nr) := by
  obtain ⟨hcase, hopen, hpass⟩ := h
  by_cases hioctl : nr = .nrIoctl
  · subst hioctl
    have hcmd : ¬ (b.isAndroid && ctx.args 1 != binderWriteRead &&
        ctx.args 1 != binderSetContextMgr) = true := by
      simpa [PassedOver, hcase] using hpass
    simp only [arm, hcmd]
    rfl
  · cases nr with
    | nrOpen => exact absurd rfl hopen
    | nrIoctl => exact absurd rfl hioctl
    | _ => rfl

/-- The program of a call: nothing for a task that is not selected, an arm that
reserves, or one that leaves the ring buffer and the signals alone. -/
theorem sysEnterMultiplexer_cases (b : Build) (entry : ProgramName) (ctx : SysEnter) :
    (¬ Selected entry ctx ∧ sysEnterMultiplexer b entry ctx = .ret) ∨
    (Selected entry ctx ∧ ∃ nr, Reserves b ctx nr ∧ sysEnterMultiplexer b entry ctx =
      .produce (fill (tracedPid entry ctx) ctx nr) (afterSubmit nr)) ∨
    (Selected entry ctx ∧ (∀ nr, ¬ Reserves b ctx nr) ∧
      (sysEnterMultiplexer b entry ctx = .ret ∨
        ∃ fmt args, sysEnterMultiplexer b entry ctx = .emit (.printk fmt args) .ret)) := by
  by_cases hsel : Selected entry ctx
  · have hpid : tracedPid entry ctx ≠ 0 := by
      rw [ne_eq, tracedPid_eq_zero_iff, not_not]
      exact hsel
    have hprog : sysEnterMultiplexer b entry ctx =
        match b.case ctx.id with
        | some nr => arm b (tracedPid entry ctx) ctx nr
        | none => .ret := if_neg hpid
    right
    cases hcase : b.case ctx.id with
    | none =>
        refine .inr ⟨hsel, fun nr h => ?_, .inl (by rw [hprog, hcase])⟩
        simp [Reserves, hcase] at h
    | some nr =>
        rw [hcase] at hprog
        simp only at hprog
        by_cases hres : Reserves b ctx nr
        · exact .inl ⟨hsel, nr, hres, by rw [hprog, arm_of_reserves _ hres]⟩
        · refine .inr ⟨hsel, fun nr' h => ?_, ?_⟩
          · have := h.1
            rw [hcase] at this
            cases this
            exact hres h
          · rw [hprog]
            by_cases hopen : nr = .nrOpen
            · subst hopen
              simp only [arm]
              split
              · exact .inl rfl
              · exact .inr ⟨_, _, rfl⟩
            · have hpass : PassedOver b ctx := by
                by_contra hnot
                exact hres ⟨hcase, hopen, hnot⟩
              obtain ⟨handroid, hioctl, hwr, hscm⟩ := hpass
              rw [hcase] at hioctl
              cases hioctl
              exact .inl (by simp [arm, handroid, hwr, hscm])
  · exact .inl ⟨hsel, if_pos ((tracedPid_eq_zero_iff entry ctx).mpr hsel)⟩

theorem sysEnterMultiplexer_of_reserves {b : Build} {entry : ProgramName} {ctx : SysEnter}
    {nr : SyscallNr} (hsel : Selected entry ctx) (hres : Reserves b ctx nr) :
    sysEnterMultiplexer b entry ctx =
      .produce (fill (tracedPid entry ctx) ctx nr) (afterSubmit nr) := by
  rcases sysEnterMultiplexer_cases b entry ctx with
    ⟨hnot, -⟩ | ⟨-, nr', hres', hp⟩ | ⟨-, hnone, -⟩
  · exact absurd hsel hnot
  · have hnr : some nr' = some nr := hres'.1.symm.trans hres.1
    cases hnr
    exact hp
  · exact absurd hres (hnone nr)

theorem sysEnterMultiplexer_oneShot (b : Build) (entry : ProgramName) (ctx : SysEnter) :
    (sysEnterMultiplexer b entry ctx).OneShot := by
  have h := sysEnterMultiplexer_cases b entry ctx
  -- the program is opaque from here on, or the goal is evaluated at each step
  generalize sysEnterMultiplexer b entry ctx = p at h ⊢
  rcases h with ⟨-, rfl⟩ | ⟨-, nr, -, rfl⟩ | ⟨-, -, rfl | ⟨fmt, args, rfl⟩⟩
  · trivial
  · exact Prog.produce_oneShot _ (afterSubmit_quiet nr)
  · trivial
  · trivial

end EPtracer
