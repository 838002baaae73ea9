import EPtracer.Lib.RingRuns
import EPtracer.Syscall.Multiplexer

/-!
# The stream of events

The system is the ring buffer with `sysEnterMultiplexer` as its producer and
the poll loop of `syscall_tracer` as its consumer.  Any number of invocations
run at once, in any tasks, and their actions interleave with each other and
with polls.

The first section reads off `sysEnterMultiplexer_cases` what an execution of
the program can submit, signal and leave out.  `StreamFaithful` is what the
events handed to the consumer say about the calls that were made, and
`stream_faithful` proves it of every reachable state.
-/

namespace EPtracer

open RingBuffer

variable {b : Build} {entry : ProgramName} {ctx : SysEnter}

/-- One run of the program on one hit of its tracepoint. -/
abbrev TracerCall := Invocation SysEnter SyscallEvent Effect

/-- A state of the ring buffer and the invocations of the program. -/
abbrev TracerState := State SysEnter SyscallEvent Effect

/-! ## Executions of the program -/

/-- Some execution of the program submits the event for the call. -/
def Submits (b : Build) (entry : ProgramName) (ctx : SysEnter) (ev : SyscallEvent) : Prop :=
  ∃ l q h, (sysEnterMultiplexer b entry ctx).Exec l q ∧ Act.submit h ev ∈ l

/-- A submitted event is what an arm filled in for a selected task. -/
theorem Submits.filled {ev : SyscallEvent} (h : Submits b entry ctx ev) :
    Selected entry ctx ∧ ∃ nr old, Reserves b ctx nr ∧
      fill (tracedPid entry ctx) ctx nr old = some ev := by
  obtain ⟨l, q, h, he, hmem⟩ := h
  rcases sysEnterMultiplexer_cases b entry ctx with
    ⟨-, hp⟩ | ⟨hsel, nr, hres, hp⟩ | ⟨-, -, hp | ⟨fmt, args, hp⟩⟩ <;> rw [hp] at he
  · rw [(Prog.Exec.of_ret he).1] at hmem
    simp at hmem
  · obtain ⟨old, hold⟩ := Prog.produce_submit (afterSubmit_quiet nr) he hmem
    exact ⟨hsel, nr, old, hres, hold⟩
  · rw [(Prog.Exec.of_ret he).1] at hmem
    simp at hmem
  · obtain ⟨e, he⟩ := Prog.Quiet.exec (p := .emit (.printk fmt args) .ret) trivial he _ hmem
    cases he

/-- What an arm fills in for a selected task can be submitted, whatever the
record held before. -/
theorem submits_of_fill (nr : SyscallNr) (old : SyscallEvent) {ev : SyscallEvent}
    (hsel : Selected entry ctx) (hres : Reserves b ctx nr)
    (hfill : fill (tracedPid entry ctx) ctx nr old = some ev) : Submits b entry ctx ev := by
  refine ⟨[.reserve (some (0, old)), .submit 0 ev], afterSubmit nr, 0, ?_, by simp⟩
  rw [sysEnterMultiplexer_of_reserves hsel hres]
  refine .step (.reserve (some (0, old))) ?_
  simp only [hfill]
  exact .step .submit .refl

/-- The program sends no signal but SIGKILL, and only for `ptrace`. -/
theorem signalled_call {l : List (Act SyscallEvent Effect)} {q : Prog SyscallEvent Effect}
    (he : (sysEnterMultiplexer b entry ctx).Exec l q) {sig : Nat}
    (hmem : Act.emit (Effect.sendSignal sig) ∈ l) :
    Selected entry ctx ∧ b.case ctx.id = some .nrPtrace ∧ sig = 9 := by
  rcases sysEnterMultiplexer_cases b entry ctx with
    ⟨-, hp⟩ | ⟨hsel, nr, hres, hp⟩ | ⟨-, -, hp | ⟨fmt, args, hp⟩⟩ <;> rw [hp] at he
  · rw [(Prog.Exec.of_ret he).1] at hmem
    simp at hmem
  · have hafter : Act.emit (Effect.sendSignal sig) ∈ l →
        ∃ l', (afterSubmit nr).Exec l' q ∧ Act.emit (Effect.sendSignal sig) ∈ l' := by
      intro hmem
      rcases Prog.produce_exec he with ⟨rfl, -⟩ | ⟨rfl, -⟩ | ⟨h, old, hcase⟩
      · simp at hmem
      · simp at hmem
      · rcases hcase with ⟨rfl, -⟩ | ⟨-, rfl, -⟩ | ⟨r, l', -, rfl, he'⟩
        · simp at hmem
        · simp at hmem
        · exact ⟨l', he', by simpa using hmem⟩
    obtain ⟨l', he', hmem'⟩ := hafter hmem
    cases nr with
    | nrPtrace =>
        cases he' with
        | refl => simp at hmem'
        | step hs he'' =>
            cases hs
            rw [(Prog.Exec.of_ret he'').1] at hmem'
            exact ⟨hsel, hres.1, by simpa using hmem'⟩
    | _ =>
        rw [(Prog.Exec.of_ret he').1] at hmem'
        simp at hmem'
  · rw [(Prog.Exec.of_ret he).1] at hmem
    simp at hmem
  · cases he with
    | refl => simp at hmem
    | step hs he' =>
        cases hs
        rw [(Prog.Exec.of_ret he').1] at hmem
        simp at hmem

/-- Why a returned call of a selected task may lack an event. -/
theorem submitted_or_reason {l : List (Act SyscallEvent Effect)}
    (he : (sysEnterMultiplexer b entry ctx).Exec l .ret) (hsel : Selected entry ctx)
    {nr : SyscallNr} (hcase : b.case ctx.id = some nr) (hopen : nr ≠ .nrOpen) :
    (∃ h ev, Act.submit h ev ∈ l) ∨ Act.reserve none ∈ l ∨ CheckedReadFails ctx nr ∨
      PassedOver b ctx := by
  by_cases hpass : PassedOver b ctx
  · exact .inr (.inr (.inr hpass))
  rw [sysEnterMultiplexer_of_reserves hsel ⟨hcase, hopen, hpass⟩] at he
  by_cases hroom : Act.reserve none ∈ l
  · exact .inr (.inl hroom)
  · obtain ⟨h, old, ⟨hf, -⟩ | ⟨r, l', -, rfl, -⟩⟩ := Prog.produce_returned he hroom
    · exact .inr (.inr (.inl (checkedReadFails_of_fill_eq_none hf hopen)))
    · exact .inl ⟨h, r, by simp⟩

/-! ## What the stream says about the calls -/

/-- The step is made by an invocation in a task that is not selected. -/
def ByUnselected (entry : ProgramName) (s : TracerState) :
    Label SysEnter SyscallEvent Effect → Prop
  | .enter ctx => ¬ Selected entry ctx
  | .act i _ => ∃ inv, s.calls[i]? = some inv ∧ ¬ Selected entry inv.call
  | .poll => False

/-- The state of a run in which the events tell the truth about the calls. -/
structure StreamFaithful (b : Build) (entry : ProgramName) (cap : Nat) (s : TracerState) :
    Prop where
  /-- A returned invocation has no open record. -/
  closed : ∀ (i h : Nat), s.Returned i → s.ring.log[h]? ≠ some (i, Slot.busy)
  once : (s.delivered.map Prod.fst).Nodup
  /-- Calls are reported in the order in which they reserved their records. -/
  reserved : (s.delivered.map Prod.fst).Sublist s.ring.owners
  /-- No call is reported after one that started when it had returned. -/
  ordered : (s.delivered.map Prod.fst).Pairwise fun i j => j ∉ s.past i
  /-- Calls that do not overlap are reported in their order. -/
  sequential : (∀ i < s.calls.length, ∀ j < i, j ∈ s.past i) →
    (s.delivered.map Prod.fst).Pairwise (· < ·)
  /-- An event reports a call of a selected task, with the type of that call. -/
  attributed : ∀ i ev, (i, ev) ∈ s.delivered → ∃ (inv : TracerCall) (nr : SyscallNr)
    (ty : SyscallEventType), s.calls[i]? = some inv ∧ Selected entry inv.call ∧
    b.case inv.call.id = some nr ∧ nr.eventType = some ty ∧ ev.type = ty.code
  /-- A task that is not selected changes neither the buffer nor the signals. -/
  untouched : ∀ l t, Step cap (sysEnterMultiplexer b entry) s l t → ByUnselected entry s l →
    t.ring = s.ring ∧ t.effects = s.effects
  /-- A call of a selected task whose arm reserves a record is reported, unless
  the buffer was full, its string could not be read, or an Android build passed
  over its command. -/
  complete : ∀ (i : Nat) (inv : TracerCall) (nr : SyscallNr), s.calls[i]? = some inv →
    inv.prog = .ret → Selected entry inv.call → b.case inv.call.id = some nr → nr ≠ .nrOpen →
    (∃ h ev, Act.submit h ev ∈ inv.log) ∨ Act.reserve none ∈ inv.log ∨
      CheckedReadFails inv.call nr ∨ PassedOver b inv.call

theorem tracer_invariant {cap : Nat} {s : TracerState}
    (h : Reachable cap (sysEnterMultiplexer b entry) s) :
    Invariant cap (sysEnterMultiplexer b entry) s :=
  h.invariant (sysEnterMultiplexer_oneShot b entry)

theorem delivered_submits {cap : Nat} {s : TracerState}
    (hs : Reachable cap (sysEnterMultiplexer b entry) s) {i : Nat} {ev : SyscallEvent}
    (hmem : (i, ev) ∈ s.delivered) :
    ∃ inv, s.calls[i]? = some inv ∧ Submits b entry inv.call ev := by
  have hi := tracer_invariant hs
  obtain ⟨inv, h, hinv, hsub⟩ := hi.delivered_submitted hmem
  exact ⟨inv, hinv, inv.log, inv.prog, h, hi.exec i inv hinv, hsub⟩

theorem sysEnterMultiplexer_unselected (h : ¬ Selected entry ctx) :
    sysEnterMultiplexer b entry ctx = .ret := by
  rcases sysEnterMultiplexer_cases b entry ctx with ⟨-, hp⟩ | ⟨hsel, -⟩ | ⟨hsel, -⟩
  · exact hp
  · exact absurd hsel h
  · exact absurd hsel h

/-- Every run, with any buffer size, keeps the stream faithful. -/
theorem stream_faithful (b : Build) (entry : ProgramName) (cap : Nat) (s : TracerState)
    (h : Reachable cap (sysEnterMultiplexer b entry) s) : StreamFaithful b entry cap s := by
  have hi := tracer_invariant h
  refine
    { closed := fun i h hr => hi.no_open hr h
      once := hi.delivered_nodup
      reserved := hi.delivered_sublist
      ordered := hi.delivered_order
      sequential := hi.delivered_sorted
      attributed := ?_
      untouched := ?_
      complete := ?_ }
  · intro i ev hmem
    obtain ⟨inv, hinv, hsub⟩ := delivered_submits h hmem
    obtain ⟨hsel, nr, old, hres, hfill⟩ := hsub.filled
    obtain ⟨ty, hty, hcode⟩ := fill_type hfill
    exact ⟨inv, nr, ty, hinv, hsel, hres.1, hty, hcode⟩
  · intro l t hs hby
    cases l with
    | enter ctx =>
        cases hs
        exact ⟨rfl, rfl⟩
    | act i a =>
        obtain ⟨inv, hinv, hnot⟩ := hby
        exact absurd hs (hi.no_act_of_ret hinv (sysEnterMultiplexer_unselected hnot))
    | poll => exact hby.elim
  · intro i inv nr hinv hret hsel hcase hopen
    exact submitted_or_reason (hi.returned_exec hinv hret) hsel hcase hopen

/-- The shell has called `read`, and its record has been polled. -/
def shellRead : TracerState :=
  State.run syscallRbRecords (sysEnterMultiplexer buildX86 shellName)
    [.enter (shellCall 0 fun _ => 0), .resume 0 blankEvent, .resume 0 blankEvent, .poll]

theorem stream_faithful_read :
    StreamFaithful buildX86 shellName syscallRbRecords shellRead ∧
    (shellRead.delivered.map fun d => (d.1, d.2.type)) = [(0, SyscallEventType.read.code)] :=
  ⟨stream_faithful _ _ _ _ (State.run_reachable _), by decide⟩

end EPtracer
