import EPtracer.Lib.Process
import EPtracer.Lifecycle.Skeleton
import EPtracer.Syscall.Transcript
import EPtracer.Target.Selection

/-!
# The process

`mainProc`, the two tracers and `cleanup` as procedures, and the process they
make.  `main` loads the object, finds out what to trace, stores it, attaches the
programs and starts the threads, and it ends the process where a call fails.

The variable `skel` is shared.  `cleanup` reads and clears it, `main` sets it and
reads it again each time, and the threads get a copy.  `cleanup` is what `main`
calls after a failure, and it is the handler of SIGINT too.  The lines for
debugging are left out.
-/

namespace EPtracer

open CText Procedure

/-! ## The callback of libbpf -/

/-- `enum libbpf_print_level`. -/
inductive LibbpfPrintLevel where
  | warn | info | debug
deriving DecidableEq

/-- Where a message of libbpf goes. -/
inductive PrintsTo where
  | nowhere | stdout
  /-- The stream in `f`, which may be null. -/
  | file (f : Bool)

/-- `libbpf_print_fn(level, …)`, where `f` says whether the variable of this name
is set. -/
def libbpfPrintFn (level : LibbpfPrintLevel) (logFile : CStr) (f : Bool) : PrintsTo :=
  if level = .debug then .nowhere
  else if logFile.bytes.length ≠ 0 then .file f
  else .stdout

/-! ## The procedures -/

/-- `cleanup()`. -/
def cleanup : EptracerProc Unit := do
  if (← perform .getSkel).isSome then
    destroy (← perform .getSkel)
    perform (.setSkel none)
  perform .sleep
  perform (.printf "[+] Bye!")
  .exit 0

/-- `load_BPF_program()`. -/
def loadBPFProgram : EptracerProc (Option EptracerBpf) := do
  if (← perform .getSkel).isNone then
    let skel ← openAndLoad
    perform (.setSkel skel.toOption)
  perform .getSkel

/-- The two options that name a target. -/
def Options.toArguments (args : Options) : Arguments := ⟨some args.program, some args.processPid⟩

/-- The string a pointer to a region points to. -/
def regionStr (region : Bytes) : CStr :=
  ⟨region.takeWhile (· ≠ 0), zero_not_mem_takeWhile region⟩

/-- `get_PID_to_trace()`, in the process that goes on as the tracer. -/
def getPidToTraceProc (args : Options) : EptracerProc (Option CStr) := do
  let spawn ← perform (.spawn args.toArguments)
  match getPidToTrace args.toArguments spawn.calls spawn.pidToTrace with
  | .exit => .exit 1
  | .null => return none
  | .str region => return some (regionStr region)
  -- the child only
  | .executed _ _ => return none

/-- `initialize_array(fd, process_identifier)`. -/
def initializeArrayProc (fd : Int32) (processIdentifier : CStr) : EptracerProc Int32 := do
  if maxProgramStringLen < processIdentifier.bytes.length then
    perform (.logError "[!] Specified program identifier exceeds program max length.")
    return -1
  else
    let bpfError ← perform (.mapUpdateElem fd (strncpy maxProgramStringLen processIdentifier))
    if bpfError < 0 then
      perform (.logError "[!] Failed to update BPF map with program name %s: error %d")
    return bpfError

/-- The loop of `stack_tracer` over the CPUs, from one of them on. -/
def setUpCpusProc (args : StackTracerArgs) (skel : Option EptracerBpf) :
    List Nat → EptracerProc Bool
  | [] => return true
  | cpu :: cpus => do
      if args.numOnlineCpus ≤ cpu then setUpCpusProc args skel cpus
      else if args.onlineMask[cpu]? ≠ some true then setUpCpusProc args skel cpus
      else
        let perfd ← perform (.perfEventOpen cpu)
        if perfd < 0 then
          perform (.logError "[!] Fail to set up performance monitor on a CPU/Core\n")
          return false
        else if !(← perform (.attachPerfEvent skel cpu perfd.toInt32)) then return false
        else setUpCpusProc args skel cpus

/-- `while ((ret = poll()) >= 0) {}`. -/
def goesOn (ret : Int32) : EptracerProc (Option Unit) :=
  return if 0 ≤ ret then none else some ()

/-- `stack_tracer(args)`. -/
def stackTracerProc (args : StackTracerArgs) (skel : Option EptracerBpf) :
    EptracerProc Unit := do
  if !(← setUpCpusProc args skel (List.range args.numCpus)) then return ()
  else if !(← perform .symbolizerNew) then
    perform (.logError "Fail to create a symbolizer\n")
  else
    let fd ← perform (.mapFd .perfmap skel)
    if !(← perform (.perfBufferNew fd)) then
      perform (.logError "[!] Error creating perf buffer manager\n")
    else .loop .perfBufferPoll goesOn pure

/-- `syscall_tracer(args)`. -/
def syscallTracerProc (skel : Option EptracerBpf) : EptracerProc Unit := do
  let fd ← perform (.mapFd .syscallRbMap skel)
  if !(← perform (.ringBufferNew fd)) then
    perform (.logError "[!] Error creating ring buffer manager\n")
    .exit 0
  else .loop .ringBufferPoll goesOn pure

/-- What a new thread runs. -/
def Start.proc : Start → EptracerProc Unit
  | .stackTracer args skel => stackTracerProc args skel
  | .syscallTracer skel => syscallTracerProc skel

/-! ## `main` -/

/-- `pthread_join` on each thread, in this order. -/
def joinThreads : List Thread → EptracerProc Unit
  | [] => pure ()
  | thread :: threads => do
      perform (.pthreadJoin thread)
      joinThreads threads

/-- `main`, when something has failed after the log was opened. -/
def failMain (text : String) : EptracerProc Int32 := do
  perform (.logError text)
  cleanup
  return 1

/-- `main`, from where the threads are there. -/
def joinTracers (args : Options) (threads : List Thread) : EptracerProc Int32 := do
  if args.showStacktrace = 0 ∧ args.showSyscall = 0 then
    perform (.printf ("[?] ePtracer is not tracing any event. To trace events, take a look at " ++
      "the usage using --help"))
    return 0
  else
    joinThreads threads
    return 0

/-- `main`, from `if (args.show_syscall)` on. -/
def startSyscallTracer (args : Options) (threads : List Thread) : EptracerProc Int32 := do
  if args.showSyscall ≠ 0 then
    let skel ← perform .getSkel
    let failed ← perform (.pthreadCreate (.syscallTracer skel))
    if failed ≠ 0 then failMain "[!] Failed to create syscall tracer thread."
    else joinTracers args (threads ++ [.syscallTracer])
  else joinTracers args threads

/-- `main`, from `if (args.show_stacktrace)` on. -/
def startTracers (args : Options) (tracerArgs : StackTracerArgs) : EptracerProc Int32 := do
  if args.showStacktrace ≠ 0 then
    let skel ← perform .getSkel
    let failed ← perform (.pthreadCreate (.stackTracer tracerArgs skel))
    if failed ≠ 0 then failMain "[!] Failed to create stack tracer thread."
    else startSyscallTracer args [.stackTracer]
  else startSyscallTracer args []

/-- `main`, from `eptracer_bpf__attach` on. -/
def attachMain (args : Options) (tracerArgs : StackTracerArgs) : EptracerProc Int32 := do
  let skel ← perform .getSkel
  let errno ← perform (.attachSkeleton skel)
  if errno ≠ 0 then failMain "[!] Error finding BPF program"
  else startTracers args tracerArgs

/-- What `main` prints if there is no target. -/
def noTarget : String :=
  "[!] Error setting process to trace. Please make sure to specify one process to trace " ++
    "using PID or consider spawning a new one."

/-- `main`, from `get_PID_to_trace` on. -/
def targetMain (args : Options) (tracerArgs : StackTracerArgs) : EptracerProc Int32 := do
  let processId ← getPidToTraceProc args
  perform (.printPid processId)
  match processId with
  | none => failMain noTarget
  | some processId =>
      let skel ← perform .getSkel
      let fd ← perform (.mapFd .programMap skel)
      let bpfError ← initializeArrayProc fd processId
      if bpfError < 0 then failMain noTarget
      else attachMain args tracerArgs

/-- `main`, from `libbpf_set_print` on. -/
def loadMain (args : Options) (tracerArgs : StackTracerArgs) : EptracerProc Int32 := do
  perform .setPrint
  let skel ← loadBPFProgram
  perform (.setSkel skel)
  if (← perform .getSkel).isNone then failMain "[!] Error opening and loading BPF file"
  else targetMain args tracerArgs

/-- `main`, from where the options are known. -/
def logMain (args : Options) (tracerArgs : StackTracerArgs) : EptracerProc Int32 := do
  if args.logFile.bytes.length ≠ 0 then
    if !(← perform (.fopen args.logFile)) then
      perform (.logError "[!] Failed to create logging file")
      return 1
    else
      let added ← perform .logAddFp
      if added < 0 then
        perform (.logError "[!] Failed to add logging file")
        return 1
      else loadMain args tracerArgs
  else loadMain args tracerArgs

/-- `main(argc, argv)`. -/
def mainProc : EptracerProc Int32 := do
  perform .signal
  let online ← perform .parseCpuMaskFile
  if online.err ≠ 0 then
    perform (.logError "[!] Failed to parse cpus number")
    return 1
  else
    let numCpus ← perform .numPossibleCpus
    if numCpus ≤ 0 then
      perform (.logError "[!] Fail to get the number of processors")
      return 1
    else
      match ← perform .argparseParse with
      | .exits status => .exit status
      | .options args =>
          logMain args ⟨online.onlineMask, numCpus.toInt.toNat, online.onlineMask.length, rfl⟩

/-! ## The process -/

/-- What `skel` holds after some calls. -/
def skelAfter (h : History eptracerCalls) : Option EptracerBpf :=
  h.foldl (fun skel e => match e with
    | ⟨.setSkel skel, _⟩ => skel
    | _ => skel) none

/-- `f` is set after some calls. -/
def fAfter (h : History eptracerCalls) : Bool :=
  h.any fun e => match e with
    | ⟨.fopen _, opened⟩ => opened
    | _ => false

/-- An entry of the log: a call, and the thread or the handler that made it. -/
abbrev EptracerEntry := Process.Entry eptracerCalls Thread

/-- A state of the process of `main`. -/
abbrev EptracerState := Process.State eptracerCalls Thread

/-- The thread that `pthread_create` starts. -/
def startedBy : EptracerEvent → Option (Thread × EptracerProc Unit)
  | ⟨.pthreadCreate start, failed⟩ => if failed = 0 then some (start.thread, start.proc) else none
  | _ => none

/-- The process that runs `main`.  What `skel` holds is what was stored there
last. -/
def eptracer : Process.Program eptracerCalls Thread where
  first := .main
  body := mainProc >>= .exit
  handler := cleanup
  starts := startedBy
  awaits
    | .pthreadJoin thread => some thread
    | _ => none
  installs
    | .signal => true
    | _ => false
  can log
    | ⟨.getSkel, skel⟩ => skel = skelAfter (log.map Process.Entry.event)
    | _ => True

/-! ## The same as functions

The tracers and `initialize_array` stand elsewhere as functions of what their calls
return. -/

/-- What is held after a call, of what was held before. -/
def Held.after (held : Held) : EptracerEvent → Held
  | ⟨.perfEventOpen cpu, perfd⟩ =>
      if perfd < 0 then held else { held with events := held.events ++ [cpu] }
  | ⟨.attachPerfEvent _ cpu _, link⟩ =>
      if link then { held with links := held.links ++ [cpu] } else held
  | _ => held

/-- What the stack tracer holds after its calls. -/
def heldAfter (h : History eptracerCalls) : Held := h.foldl Held.after .empty

theorem heldAfter_snoc (h : History eptracerCalls) (e : EptracerEvent) :
    heldAfter (h ++ [e]) = (heldAfter h).after e := by
  rw [heldAfter, List.foldl_append]
  rfl

/-- The other calls make nothing. -/
theorem heldAfter_append {h h' : History eptracerCalls}
    (hquiet : ∀ e ∈ h', ∀ held : Held, held.after e = held) :
    heldAfter (h ++ h') = heldAfter h := by
  induction h' using List.reverseRecOn with
  | nil => rw [List.append_nil]
  | append_singleton h' e ih =>
      obtain ⟨hquiet, he⟩ := List.forall_mem_append.mp hquiet
      rw [← List.append_assoc, heldAfter_snoc, he e List.mem_cons_self, ih hquiet]

/-- The calls return these results.  The tracer polls if the function of them does,
and holds what it says. -/
def setUpContract (calls : SetUpCalls) (args : StackTracerArgs) : Contract eptracerCalls where
  rely _
    | ⟨.perfEventOpen cpu, perfd⟩ => perfd = calls.perfEventOpen cpu
    | ⟨.attachPerfEvent _ cpu _, link⟩ => link = calls.attachPerfEvent cpu
    | ⟨.symbolizerNew, symbolizer⟩ => symbolizer = calls.symbolizerNew
    | ⟨.perfBufferNew _, buffer⟩ => buffer = calls.perfBufferNew
    | _ => True
  guar h e := e.call = .perfBufferPoll →
    (stackTracer calls args).isOk ∧ heldAfter h = (lastState (stackTracer calls args)).held
  exits _ _ := False

theorem setUpCpusProc_agrees (calls : SetUpCalls) (args : StackTracerArgs)
    (skel : Option EptracerBpf) (cpus : List Nat) (st : SetUp) (h : History eptracerCalls)
    (hheld : heldAfter h = st.held) :
    (setUpCpusProc args skel cpus).wp (setUpContract calls args)
      (fun done h' => done = (setUpCpus calls args cpus st).isOk ∧
        heldAfter h' = (lastState (setUpCpus calls args cpus st)).held) h := by
  induction cpus generalizing st h with
  | nil => exact ⟨rfl, hheld⟩
  | cons cpu cpus ih =>
      simp only [setUpCpusProc, perform, Proc.perform, Proc.call_bind, Proc.ret_bind, setUpCpus,
        setUpCpu]
      split
      next => exact ih st h hheld
      next =>
        split
        next => exact ih _ h hheld
        next =>
          refine Proc.wp_call.mpr fun perfd hperfd => ⟨by simp [setUpContract], ?_⟩
          obtain rfl : perfd = calls.perfEventOpen cpu := hperfd
          split
          next hfails =>
            refine fun _ _ => ⟨by simp [setUpContract], rfl, ?_⟩
            rw [heldAfter_snoc, heldAfter_snoc, hheld]
            exact if_pos hfails
          next hopens =>
            have hopened : heldAfter (h ++ [⟨.perfEventOpen cpu, calls.perfEventOpen cpu⟩]) =
                { st.held with events := st.held.events ++ [cpu] } := by
              rw [heldAfter_snoc, hheld]
              exact if_neg hopens
            refine Proc.wp_call.mpr fun link hlink => ⟨by simp [setUpContract], ?_⟩
            obtain rfl : link = calls.attachPerfEvent cpu := hlink
            cases calls.attachPerfEvent cpu with
            | false =>
                refine ⟨rfl, ?_⟩
                rw [heldAfter_snoc, hopened]
                rfl
            | true =>
                refine ih _ _ ?_
                rw [heldAfter_snoc, hopened]
                rfl

/-- The tracer polls if and only if the function gets to the polling, and it holds
what the function says when it polls and when it returns. -/
theorem stackTracerProc_agrees (calls : SetUpCalls) (args : StackTracerArgs)
    (skel : Option EptracerBpf) :
    (stackTracerProc args skel).wp (setUpContract calls args)
      (fun _ h => ((stackTracer calls args).isOk → ∃ e ∈ h, e.call = .perfBufferPoll) ∧
        heldAfter h = (lastState (stackTracer calls args)).held) [] := by
  refine Proc.wp_bind_iff.mpr (Proc.wp_mono ?_ (setUpCpusProc_agrees calls args skel
    (List.range args.numCpus) (.init args.numCpus) [] rfl))
  rintro done h ⟨rfl, hheld⟩
  cases hcpus : setUpCpus calls args (List.range args.numCpus) (.init args.numCpus) with
  | error st =>
      rw [hcpus] at hheld
      simp [stackTracer, hcpus, Except.isOk, Except.toBool, Proc.wp_pure, hheld]
  | ok st =>
      rw [hcpus] at hheld
      have hst : heldAfter h = st.held := hheld
      refine Proc.wp_call.mpr fun symbolizer hsymbolizer => ⟨by simp [setUpContract], ?_⟩
      obtain rfl : symbolizer = calls.symbolizerNew := hsymbolizer
      cases hnew : calls.symbolizerNew with
      | false =>
          refine fun _ _ => ⟨by simp [setUpContract], ?_⟩
          rw [List.append_assoc]
          refine ⟨by simp [stackTracer, hcpus, hnew, Except.isOk, Except.toBool], ?_⟩
          rw [heldAfter_append (by simp [Held.after]), hst]
          simp [stackTracer, hcpus, hnew, lastState]
      | true =>
          refine fun fd _ => ⟨by simp [setUpContract], fun buffer hbuffer =>
            ⟨by simp [setUpContract], ?_⟩⟩
          obtain rfl : buffer = calls.perfBufferNew := hbuffer
          rw [List.append_assoc, List.append_assoc]
          cases hbuffer : calls.perfBufferNew with
          | false =>
              refine fun _ _ => ⟨by simp [setUpContract], ?_⟩
              rw [List.append_assoc]
              refine ⟨by simp [stackTracer, hcpus, hnew, hbuffer, Except.isOk, Except.toBool], ?_⟩
              rw [heldAfter_append (by simp [Held.after]), hst]
              simp [stackTracer, hcpus, hnew, hbuffer, lastState]
          | true =>
              have hrun : stackTracer calls args = .ok st :=
                stackTracer_eq_ok_iff.mpr ⟨hcpus, hnew, hbuffer⟩
              rw [hrun]
              -- what is held stays as it was before the first poll
              refine ⟨fun h' => heldAfter h' = st.held, ?_, fun h' hh' ret _ => ⟨fun _ => ?_, ?_⟩⟩
              · exact (heldAfter_append (by simp [Held.after])).trans hst
              · rw [hrun]
                exact ⟨rfl, hh'⟩
              · have hpolled : heldAfter (h' ++ [⟨.perfBufferPoll, ret⟩]) = st.held :=
                  (heldAfter_append (by simp [Held.after])).trans hh'
                simp only [goesOn]
                split
                next => exact hpolled
                next =>
                  refine ⟨fun _ => ?_, hpolled⟩
                  exact ⟨_, List.mem_append_right h' List.mem_cons_self, rfl⟩

/-- The value of `program_map` after some calls, if it was `map` before.  A failed
update leaves it. -/
def programMapAfter (map : ProgramName) (h : History eptracerCalls) : ProgramName :=
  h.foldl (fun map e => match e with
    | ⟨.mapUpdateElem _ name, bpfError⟩ => if bpfError < 0 then map else name
    | _ => map) map

/-- The update returns this. -/
def updateContract (update : Int32) : Contract eptracerCalls where
  rely _
    | ⟨.mapUpdateElem _ _, bpfError⟩ => bpfError = update
    | _ => True
  guar _ _ := True
  exits _ _ := False

theorem initializeArrayProc_agrees (update fd : Int32) (processIdentifier : CStr)
    (map : ProgramName) (h : History eptracerCalls) :
    (initializeArrayProc fd processIdentifier).wp (updateContract update)
      (fun bpfError h' => (bpfError, programMapAfter map h') =
        initializeArray update processIdentifier (programMapAfter map h)) h := by
  simp only [initializeArrayProc, initializeArray, perform, Proc.perform, Proc.call_bind,
    Proc.ret_bind]
  split
  next =>
    exact fun _ _ => ⟨trivial, Proc.wp_pure.mpr (by simp [programMapAfter])⟩
  next =>
    refine Proc.wp_call.mpr fun bpfError hupdate => ⟨trivial, ?_⟩
    obtain rfl : bpfError = update := hupdate
    split
    next hfails =>
      exact fun _ _ => ⟨trivial, Proc.wp_pure.mpr (by simp [programMapAfter, hfails])⟩
    next hdone => exact Proc.wp_pure.mpr (by simp [programMapAfter, hdone])

/-- What `ring_buffer__poll` returns: an error, or the number of the records it has
passed on. -/
def Poll.ret : Poll → Int32
  | .failed err _ => err
  | .took records => Int32.ofNat (min records.length (2 ^ 31 - 1))

/-- The records a poll hands to `syscall_event_handler`. -/
def Poll.records : Poll → List (SyscallEvent × Int64)
  | .failed _ _ => []
  | .took records => records

/-- What the polls among some calls have returned. -/
def pollResults (h : History eptracerCalls) : List Int32 :=
  h.filterMap fun e => match e with
    | ⟨.ringBufferPoll, ret⟩ => some ret
    | _ => none

theorem pollResults_append (h h' : History eptracerCalls) :
    pollResults (h ++ h') = pollResults h ++ pollResults h' := List.filterMap_append

theorem exists_poll {h : History eptracerCalls} {ret : Int32} (hret : ret ∈ pollResults h) :
    ∃ e ∈ h, e.call = .ringBufferPoll := by
  obtain ⟨e, hmem, he⟩ := List.mem_filterMap.mp hret
  refine ⟨e, hmem, ?_⟩
  split at he
  next => rfl
  next => cases he

/-- No poll comes after one that has failed. -/
def pollContract : Contract eptracerCalls where
  rely _ _ := True
  guar h e := e.call = .ringBufferPoll → ∀ ret ∈ pollResults h, 0 ≤ ret
  exits _ _ := True

theorem syscallTracerProc_polls (skel : Option EptracerBpf) :
    (syscallTracerProc skel).wp pollContract (fun _ _ => True) [] := by
  simp only [syscallTracerProc, perform, Proc.perform, Proc.call_bind, Proc.ret_bind]
  refine fun fd _ => ⟨by simp [pollContract], fun buffer _ => ⟨by simp [pollContract], ?_⟩⟩
  cases buffer with
  | false => exact fun _ _ => ⟨by simp [pollContract], trivial⟩
  | true =>
      refine ⟨fun h => ∀ ret ∈ pollResults h, 0 ≤ ret, by simp [pollResults], ?_⟩
      intro h hh ret _
      refine ⟨fun _ => hh, ?_⟩
      simp only [goesOn]
      split
      next hret =>
        change ∀ ret' ∈ pollResults (h ++ [⟨.ringBufferPoll, ret⟩]), 0 ≤ ret'
        rw [pollResults_append]
        exact List.forall_mem_append.mpr ⟨hh, by simpa [pollResults] using hret⟩
      next => trivial

/-- A failed poll is the last one. -/
theorem pollResults_of_failed {e : Event eptracerCalls} {h : History eptracerCalls}
    (hends : ∀ before e' after, h = before ++ e' :: after → pollContract.guar (e :: before) e')
    {err : Int32} (herr : err ∈ pollResults [e]) (neg : err < 0) : pollResults h = [] := by
  refine List.eq_nil_iff_forall_not_mem.mpr fun ret hret => ?_
  obtain ⟨e', hmem, hcall⟩ := exists_poll hret
  obtain ⟨before, after, hh⟩ := List.append_of_mem hmem
  have hsucceeded : 0 ≤ err := by
    refine hends before e' after hh hcall err ?_
    rw [← List.singleton_append, pollResults_append]
    exact List.mem_append_left _ herr
  exact absurd hsucceeded (Int32.not_le.mpr neg)

theorem pollLoop_eq {h : History eptracerCalls} {polls : List Poll}
    (hpolls : pollResults h = polls.map Poll.ret)
    (hends : ∀ before e after, h = before ++ e :: after → pollContract.guar before e) :
    pollLoop polls = polls.flatMap Poll.records := by
  induction h generalizing polls with
  | nil =>
      obtain rfl : polls = [] := by simpa [pollResults] using hpolls
      rfl
  | cons e h ih =>
      rw [← List.singleton_append, pollResults_append] at hpolls
      have hrest (before : History eptracerCalls) (e' : Event eptracerCalls)
          (after : History eptracerCalls) (hh : h = before ++ e' :: after) :
          pollContract.guar (e :: before) e' := hends (e :: before) e' after (by rw [hh]; rfl)
      have hlater (before : History eptracerCalls) (e' : Event eptracerCalls)
          (after : History eptracerCalls) (hh : h = before ++ e' :: after) :
          pollContract.guar before e' := by
        intro hpoll ret hret
        refine hrest before e' after hh hpoll ret ?_
        rw [← List.singleton_append, pollResults_append]
        exact List.mem_append_right _ hret
      cases hfirst : pollResults [e] with
      | nil =>
          rw [hfirst] at hpolls
          exact ih hpolls hlater
      | cons ret others =>
          have hone : (pollResults [e]).length ≤ 1 := List.length_filterMap_le _ _
          obtain rfl : others = [] := by simpa [hfirst] using hone
          rw [hfirst] at hpolls
          obtain ⟨poll, polls', rfl, hpoll, hpolls'⟩ := List.map_eq_cons_iff.mp hpolls.symm
          change polls'.map Poll.ret = pollResults h at hpolls'
          cases poll with
          | took records => simp [pollLoop, Poll.records, ih hpolls'.symm hlater]
          | failed err neg =>
              have herr : err ∈ pollResults [e] := by simp [hfirst, ← hpoll, Poll.ret]
              rw [pollResults_of_failed hrest herr neg] at hpolls'
              obtain rfl := List.map_eq_nil_iff.mp hpolls'
              rfl

/-- All that the polls have taken out is handled. -/
theorem syscallTracerProc_agrees {skel : Option EptracerBpf} {l : History eptracerCalls}
    {q : EptracerProc Unit} (he : (syscallTracerProc skel).Exec l q) {polls : List Poll}
    (hpolls : pollResults l = polls.map Poll.ret) :
    pollLoop polls = polls.flatMap Poll.records := by
  refine pollLoop_eq hpolls ?_
  exact (Proc.wp_exec (syscallTracerProc_polls skel) he fun _ _ _ _ => trivial).2

end EPtracer
