import EPtracer.Syscall.Stream
import EPtracer.Target.Soundness

/-!
# Terminating a debugger

The `ptrace` arm sends SIGKILL to the task that made the call, after it
submitted its record.  Two things stand between a debugger and the signal.

The arm returns without the signal when its reservation finds the buffer full.
Events are only taken out by polls, so eight unconsumed records are enough for
a debugger to get through (`fullThenPtrace`).  `ptrace_killed_iff_room` says
that this is the only way.

The arm is reached only by a task that is selected itself.  For a numeric
identifier that is the target, or a task that has the digits for a name.  A
debugger is neither (`debugger_killed_iff`).
-/

namespace EPtracer

open CText RingBuffer

variable {b : Build} {entry : ProgramName} {ctx : SysEnter}

/-! ## The signal and the buffer -/

/-- A selected task calls `ptrace`. -/
def TracedPtrace (b : Build) (entry : ProgramName) (ctx : SysEnter) : Prop :=
  Selected entry ctx ∧ b.case ctx.id = some .nrPtrace

theorem TracedPtrace.reserves (h : TracedPtrace b entry ctx) : Reserves b ctx .nrPtrace :=
  ⟨h.2, by decide, by simp [PassedOver, h.2]⟩

/-- A returned `ptrace` call sent its signal exactly if it got a record. -/
theorem TracedPtrace.signalled_iff (h : TracedPtrace b entry ctx)
    {l : List (Act SyscallEvent Effect)} (he : (sysEnterMultiplexer b entry ctx).Exec l .ret) :
    Act.emit (Effect.sendSignal 9) ∈ l ↔ Act.reserve none ∉ l := by
  rw [sysEnterMultiplexer_of_reserves h.1 h.reserves] at he
  rcases Prog.produce_exec he with ⟨-, hret⟩ | ⟨rfl, -⟩ | ⟨h, old, hcase⟩
  · simp at hret
  · simp
  · rcases hcase with ⟨-, hret⟩ | ⟨hnone, -, -⟩ | ⟨r, l', -, rfl, he'⟩
    · simp at hret
    · cases hnone
    · cases he' with
      | step hs he'' =>
          cases hs
          rw [(Prog.Exec.of_ret he'').1]
          simp

theorem TracedPtrace.exec (h : TracedPtrace b entry ctx) (r : Nat) (old : SyscallEvent) :
    ∃ ev, (sysEnterMultiplexer b entry ctx).Exec
      [.reserve (some (r, old)), .submit r ev, .emit (.sendSignal 9)] .ret := by
  rw [sysEnterMultiplexer_of_reserves h.1 h.reserves]
  exact ⟨_, .step (.reserve (some (r, old))) (.step .submit (.step .emit .refl))⟩

/-- The state of a run in which `ptrace` and nothing else is answered with
SIGKILL. -/
structure AntiDebug (b : Build) (entry : ProgramName) (s : TracerState) : Prop where
  /-- Each selected task that called `ptrace` was sent SIGKILL. -/
  killed : ∀ (i : Nat) (inv : TracerCall), s.calls[i]? = some inv → inv.prog = .ret →
    TracedPtrace b entry inv.call → (i, Effect.sendSignal 9) ∈ s.effects
  /-- No other call was answered with a signal. -/
  only : ∀ (i sig : Nat), (i, Effect.sendSignal sig) ∈ s.effects →
    sig = 9 ∧ ∃ inv : TracerCall, s.calls[i]? = some inv ∧ TracedPtrace b entry inv.call

/-- There is room for a record when a selected task's `ptrace` call reserves. -/
def RoomForPtrace (b : Build) (entry : ProgramName) (cap : Nat) (s : TracerState) :
    Label SysEnter SyscallEvent Effect → Prop
  | .act i _ => ∀ (inv : TracerCall) (next : Option (Nat × SyscallEvent) → _),
      s.calls[i]? = some inv → TracedPtrace b entry inv.call → inv.prog = .reserve next →
      s.ring.used < cap
  | _ => True

/-- With room for them, no `ptrace` call finds the buffer full. -/
theorem RoomForPtrace.no_full {cap : Nat} {s : TracerState}
    (h : ReachableBy (RoomForPtrace b entry cap) cap (sysEnterMultiplexer b entry) s) (i : Nat)
    (inv : TracerCall) (hinv : s.calls[i]? = some inv) (hptrace : TracedPtrace b entry inv.call) :
    Act.reserve none ∉ inv.log := by
  refine h.not_mem_log (C := TracedPtrace b entry) ?_ i inv hinv hptrace
  intro s t i inv hinv hptrace hroom hs
  cases hs with
  | act hinv' hp hd =>
      rw [hinv] at hinv'
      cases hinv'
      generalize hq : inv.prog = q at hp
      cases hp with
      | @reserve next _ =>
          cases hd with
          | full hfull => exact absurd (hroom inv next hinv hptrace hq) (Nat.not_lt.mpr hfull)

/-- In every run a `ptrace` call is answered exactly if it found room, and with
room for all of them the answer does not depend on anything else. -/
theorem ptrace_killed_iff_room (b : Build) (entry : ProgramName) (cap : Nat) (s : TracerState)
    (h : Reachable cap (sysEnterMultiplexer b entry) s) :
    (∀ (i : Nat) (inv : TracerCall), s.calls[i]? = some inv → TracedPtrace b entry inv.call →
      (∃ t, Relation.ReflTransGen
        (fun s t => ∃ a, Step cap (sysEnterMultiplexer b entry) s (.act i a) t) s t ∧
        t.Returned i) ∧
      (inv.prog = .ret →
        ((i, Effect.sendSignal 9) ∈ s.effects ↔ Act.reserve none ∉ inv.log))) ∧
    (ReachableBy (RoomForPtrace b entry cap) cap (sysEnterMultiplexer b entry) s →
      AntiDebug b entry s) := by
  have hi := tracer_invariant h
  have hiff : ∀ (i : Nat) (inv : TracerCall), s.calls[i]? = some inv → inv.prog = .ret →
      TracedPtrace b entry inv.call →
      ((i, Effect.sendSignal 9) ∈ s.effects ↔ Act.reserve none ∉ inv.log) := by
    intro i inv hinv hret hptrace
    rw [hi.effects, ← hptrace.signalled_iff (hi.returned_exec hinv hret)]
    constructor
    · rintro ⟨inv', hinv', hmem⟩
      rw [hinv] at hinv'
      cases hinv'
      exact hmem
    · exact fun hmem => ⟨inv, hinv, hmem⟩
  have : Nonempty SyscallEvent := ⟨blankEvent⟩
  refine ⟨fun i inv hinv hptrace =>
      ⟨State.can_return cap _ hinv, fun hret => hiff i inv hinv hret hptrace⟩,
    fun hroom => ⟨fun i inv hinv hret hptrace => ?_, fun i sig hmem => ?_⟩⟩
  · rw [hiff i inv hinv hret hptrace]
    exact RoomForPtrace.no_full hroom i inv hinv hptrace
  · obtain ⟨inv, hinv, hmem⟩ := (hi.effects i _).mp hmem
    obtain ⟨hsel, hcase, hsig⟩ := signalled_call (hi.exec i inv hinv) hmem
    exact ⟨hsig, inv, hinv, hsel, hcase⟩

/-- The shell has called `ptrace`, and nothing else has happened. -/
def ptraceAlone : TracerState :=
  State.run syscallRbRecords (sysEnterMultiplexer buildX86 shellName)
    [.enter (shellCall 101 fun _ => 0), .resume 0 blankEvent, .resume 0 blankEvent,
      .resume 0 blankEvent]

theorem ptrace_killed_iff_room_alone :
    (0, Effect.sendSignal 9) ∈ ptraceAlone.effects := by
  have hinv : ∃ inv : TracerCall, ptraceAlone.calls[0]? = some inv ∧ inv.prog = .ret ∧
      inv.call = shellCall 101 (fun _ => 0) ∧ Act.reserve none ∉ inv.log :=
    ⟨_, rfl, rfl, rfl, by simp⟩
  obtain ⟨inv, hinv, hret, hcall, hroom⟩ := hinv
  have hptrace : TracedPtrace buildX86 shellName inv.call := by
    rw [hcall]
    exact ⟨by decide, by decide⟩
  exact (((ptrace_killed_iff_room buildX86 shellName syscallRbRecords ptraceAlone
    (State.run_reachable _)).1 0 inv hinv hptrace).2 hret).mpr hroom

/-- A traced shell reads eight times, and then calls `ptrace`.  No event is
taken out in between. -/
def fullThenPtrace : TracerState :=
  State.run syscallRbRecords (sysEnterMultiplexer buildX86 shellName)
    (((List.range 8).flatMap fun i =>
      [.enter (shellCall 0 fun _ => 0), .resume i blankEvent, .resume i blankEvent]) ++
      [.enter (shellCall 101 fun _ => 0), .resume 8 blankEvent])

/-- The `ptrace` call returns, and the shell lives. -/
theorem ptrace_survives_full_buffer :
    ¬ ∀ s, Reachable syscallRbRecords (sysEnterMultiplexer buildX86 shellName) s →
      AntiDebug buildX86 shellName s := by
  intro h
  have hinv : ∃ inv : TracerCall, fullThenPtrace.calls[8]? = some inv ∧ inv.prog = .ret ∧
      inv.call = shellCall 101 (fun _ => 0) := ⟨_, rfl, rfl, rfl⟩
  obtain ⟨inv, hinv, hret, hcall⟩ := hinv
  have hptrace : TracedPtrace buildX86 shellName inv.call := by
    rw [hcall]
    exact ⟨by decide, by decide⟩
  have hkilled := (h fullThenPtrace (State.run_reachable _)).killed 8 inv hinv hret hptrace
  have hnone : fullThenPtrace.effects = [] := rfl
  rw [hnone] at hkilled
  simp at hkilled

/-! ## The signal and the target -/

/-- Process `ctx.task` tries to hook the process with the PID `identifier`
stands for. -/
structure HooksTarget (b : Build) (identifier : CStr) (ctx : SysEnter) : Prop where
  numeral : IsNumeral identifier.bytes
  /-- The task is another process. -/
  other : ctx.task.tgid.toNat ≠ decimalValue identifier.bytes
  case : b.case ctx.id = some .nrPtrace
  /-- The PID it passes is the target's. -/
  target : (ctx.args 1).toNat = decimalValue identifier.bytes

/-- Such a task is selected only by its name. -/
theorem HooksTarget.selected_iff {identifier : CStr} (h : HooksTarget b identifier ctx)
    (hlen : identifier.bytes.length ≤ maxProgramStringLen) :
    Selected (strncpy maxProgramStringLen identifier) ctx ↔
      ctx.task.comm.bytes = identifier.bytes ∧ ctx.task.tgid ≠ 0 := by
  have hlt := (ctx.args 1).toNat_lt
  have hpre : numericPrefix identifier ≠ ctx.task.tgid.toNat := by
    rw [numericPrefix, h.numeral.digitPrefix_eq, ← h.target, Nat.mod_eq_of_lt hlt, h.target]
    exact h.other.symm
  simp [Selected, targetPid_eq hlen, hpre]

/-- A debugger that hooks the target is terminated exactly if its own name is
the number of the target. -/
theorem debugger_killed_iff (b : Build) (update : Int32) (identifier : CStr) (map : ProgramName)
    (ctx : SysEnter) (l : List (Act SyscallEvent Effect))
    (haccept : 0 ≤ (initializeArray update identifier map).1)
    (hhooks : HooksTarget b identifier ctx)
    (he : (sysEnterMultiplexer b (initializeArray update identifier map).2 ctx).Exec l .ret)
    (hroom : Act.reserve none ∉ l) :
    Act.emit (Effect.sendSignal 9) ∈ l ↔
      ctx.task.comm.bytes = identifier.bytes ∧ ctx.task.tgid ≠ 0 := by
  obtain ⟨hlen, hentry⟩ := initializeArray_accepted haccept
  rw [hentry] at he
  rw [← hhooks.selected_iff hlen]
  constructor
  · exact fun hmem => (signalled_call he hmem).1
  · exact fun hsel => (TracedPtrace.signalled_iff ⟨hsel, hhooks.case⟩ he).mpr hroom

/-- A call of `ptrace` on process 1234 by the process with PID 500. -/
def hook1234 (comm : Comm) : SysEnter where
  task := ⟨comm, 500, 500⟩
  id := 101
  args := fun i => if i = 1 then 1234 else 0
  mem := fun _ => none

theorem hook1234_hooks (comm : Comm) :
    HooksTarget buildX86 ⟨ascii "1234", by decide⟩ (hook1234 comm) where
  numeral := ⟨by decide, by decide +kernel⟩
  other := show (500 : UInt32).toNat ≠ decimalValue (ascii "1234") by decide
  case := show buildX86.case 101 = some .nrPtrace by decide
  target := show (1234 : UInt64).toNat = decimalValue (ascii "1234") by decide

theorem debugger_killed_iff_named :
    ∃ l, (sysEnterMultiplexer buildX86
        (initializeArray 0 ⟨ascii "1234", by decide⟩ (Buf.zero _)).2
        (hook1234 ⟨⟨ascii "1234", by decide⟩, by decide⟩)).Exec l .ret ∧
      Act.emit (Effect.sendSignal 9) ∈ l := by
  have hptrace : TracedPtrace buildX86 (initializeArray 0 ⟨ascii "1234", by decide⟩ (Buf.zero _)).2
      (hook1234 ⟨⟨ascii "1234", by decide⟩, by decide⟩) := ⟨by decide, by decide⟩
  obtain ⟨ev, he⟩ := hptrace.exec 0 blankEvent
  exact ⟨_, he, (debugger_killed_iff buildX86 0 ⟨ascii "1234", by decide⟩ (Buf.zero _)
    (hook1234 ⟨⟨ascii "1234", by decide⟩, by decide⟩) _ (by decide) (hook1234_hooks _) he
    (by simp)).mpr ⟨rfl, by decide⟩⟩

/-- `gdb` hooks process 1234 and lives. -/
theorem debugger_survives :
    ¬ ∀ (b : Build) (update : Int32) (identifier : CStr) (map : ProgramName) (ctx : SysEnter)
      (l : List (Act SyscallEvent Effect)),
      0 ≤ (initializeArray update identifier map).1 → HooksTarget b identifier ctx →
      (sysEnterMultiplexer b (initializeArray update identifier map).2 ctx).Exec l .ret →
      Act.reserve none ∉ l → Act.emit (Effect.sendSignal 9) ∈ l := by
  intro h
  have hnot : ¬ Selected (initializeArray 0 ⟨ascii "1234", by decide⟩ (Buf.zero _)).2
      (hook1234 ⟨⟨ascii "gdb", by decide⟩, by decide⟩) := by decide
  have he : (sysEnterMultiplexer buildX86
      (initializeArray 0 ⟨ascii "1234", by decide⟩ (Buf.zero _)).2
      (hook1234 ⟨⟨ascii "gdb", by decide⟩, by decide⟩)).Exec [] .ret := by
    rw [sysEnterMultiplexer_unselected hnot]
    exact .refl
  have hmem := h _ _ _ _ _ _ (by decide) (hook1234_hooks _) he (by simp)
  simp at hmem

end EPtracer
