import EPtracer.Lifecycle.Main

/-!
# What each thread guarantees

Each procedure is shown to keep a contract of its own.  What `main` relies on is
that `skel` holds what it has stored there itself, as long as it is the only
thread.  The others rely on nothing.

`mainGuar` says what has happened before each call of `main`, and `MainExits` with
what status it ends.
-/

namespace EPtracer

open CText Procedure

/-! ## The calls that matter -/

/-- The call creates a thread, or tries to. -/
def Creates (e : EptracerEvent) : Prop := ∃ start, e.call = .pthreadCreate start

/-- The call frees the object. -/
def Frees (e : EptracerEvent) : Prop := e.call = .freeObject

/-- The call stores an object in `skel`. -/
def Publishes (e : EptracerEvent) : Prop := ∃ obj, e.call = .setSkel (some obj)

/-- The call clears `skel`. -/
def Clears (e : EptracerEvent) : Prop := e.call = .setSkel none

/-- The call ends `main` with this status. -/
def EndsWith (status : Int32) : EptracerEvent → Prop
  | ⟨.parseCpuMaskFile, online⟩ => online.err ≠ 0 ∧ status = 1
  | ⟨.numPossibleCpus, numCpus⟩ => numCpus ≤ 0 ∧ status = 1
  | ⟨.argparseParse, parsed⟩ => parsed = .exits status
  | ⟨.fopen _, opened⟩ => opened = false ∧ status = 1
  | ⟨.logAddFp, added⟩ => added < 0 ∧ status = 1
  | ⟨.spawn args, spawn⟩ =>
      getPidToTrace args spawn.calls spawn.pidToTrace = .exit ∧ status = 1
  | _ => False

/-- The call ends `main`, with some status. -/
def Fails (e : EptracerEvent) : Prop := ∃ status, EndsWith status e

/-- A thread could not be created. -/
def CreateFails (e : EptracerEvent) : Prop :=
  ∃ (start : Start) (failed : Int32), failed ≠ 0 ∧ e = ⟨.pthreadCreate start, failed⟩

/-- The calls of `cleanup`. -/
def CleanUpCall : EptracerCall → Prop
  | .getSkel | .destroySkeleton _ | .freeObject | .setSkel none | .sleep | .printf _ => True
  | _ => False

/-- The calls of the tracers. -/
def ThreadCall : EptracerCall → Prop
  | .perfEventOpen _ | .attachPerfEvent _ _ _ | .symbolizerNew | .mapFd _ _ | .perfBufferNew _
  | .perfBufferPoll | .ringBufferNew _ | .ringBufferPoll | .logError _ => True
  | _ => False

/-! ## The contracts -/

section

variable (h : History eptracerCalls)

/-- There is no other thread yet. -/
def Alone : Prop := ∀ e ∈ h, ¬ Creates e

/-- `libbpf_print_fn` writes to no stream that is null. -/
def HasStream : Prop := ∃ args, ⟨.argparseParse, .options args⟩ ∈ h ∧
  ∀ level, libbpfPrintFn level args.logFile (fAfter h) ≠ .file false

/-- What is to be traced has been stored in `program_map`. -/
def Stored : Prop := ∃ (args : Options) (spawn : TracerSpawn) (region : Bytes) (fd update : Int32),
  ⟨.argparseParse, .options args⟩ ∈ h ∧ ⟨.spawn args.toArguments, spawn⟩ ∈ h ∧
  getPidToTrace args.toArguments spawn.calls spawn.pidToTrace = .str region ∧
  ⟨.mapUpdateElem fd (strncpy maxProgramStringLen (regionStr region)), update⟩ ∈ h ∧ ¬ update < 0

/-- `skel` was read as the last thing that was done with it, and was not null. -/
def ReadBefore : Prop := ∃ before obj after, h = before ++ ⟨.getSkel, some obj⟩ :: after ∧
  ∀ e ∈ after, e.call ≠ .getSkel

/-- The object in use is all there, and `main` is the only thread. -/
def InUse (skel : Option EptracerBpf) : Prop :=
  skel = some ⟨true⟩ ∧ Alone h ∧ ∀ e ∈ h, ¬ Frees e

/-- The option asks for the thread. -/
def Start.Asked : Start → Prop
  | .stackTracer _ _ => ∃ args, ⟨.argparseParse, .options args⟩ ∈ h ∧ args.showStacktrace ≠ 0
  | .syscallTracer _ => ∃ args, ⟨.argparseParse, .options args⟩ ∈ h ∧ args.showSyscall ≠ 0

/-- The object a thread is started with. -/
def Start.skel : Start → Option EptracerBpf
  | .stackTracer _ skel => skel
  | .syscallTracer skel => skel

/-- A thread can be created. -/
structure Ready (start : Start) : Prop where
  attached : ∃ skel, ⟨.attachSkeleton skel, (0 : Int32)⟩ ∈ h
  works : ∀ e ∈ h, ¬ Fails e
  notFreed : ∀ e ∈ h, ¬ Frees e
  asked : start.Asked h
  skel : Alone h → start.skel = some ⟨true⟩
  first : start.thread = .stackTracer → Alone h

/-- The object can be freed: it was read from `skel`, or it has not got there. -/
structure MayFree : Prop where
  once : ∀ e ∈ h, ¬ Frees e
  source : ReadBefore h ∨ (Alone h ∧ ∀ e ∈ h, ¬ Publishes e)
  noSyscallTracer : ∀ skel, ⟨.pthreadCreate (.syscallTracer skel), (0 : Int32)⟩ ∉ h
  threads : Alone h ∨ ∃ e ∈ h, CreateFails e

/-- What holds before each call of `main`, where `h` is what `main` has called so far. -/
def mainGuar : EptracerEvent → Prop
  | ⟨.parseCpuMaskFile, _⟩ | ⟨.numPossibleCpus, _⟩ | ⟨.fopen _, _⟩ | ⟨.logAddFp, _⟩
  | ⟨.spawn _, _⟩ => Alone h
  | ⟨.argparseParse, _⟩ => Alone h ∧ ∀ e ∈ h, e.call ≠ .argparseParse
  | ⟨.setPrint, _⟩ => HasStream h
  | ⟨.setSkel (some obj), _⟩ => InUse h (some obj) ∧ ∀ e ∈ h, ¬ Clears e
  | ⟨.mapFd _ skel, _⟩ => InUse h skel
  | ⟨.attachPerfEvent _ _ _, _⟩ => False
  | ⟨.attachSkeleton skel, _⟩ => InUse h skel ∧ Stored h
  | ⟨.pthreadCreate start, _⟩ => Ready h start
  | ⟨.freeObject, _⟩ => MayFree h
  | _ => True

/-- All threads that were created have been joined. -/
def Joined : Prop := ∀ start, ⟨.pthreadCreate start, (0 : Int32)⟩ ∈ h →
  ⟨.pthreadJoin start.thread, ()⟩ ∈ h

/-- `main` ends the process with this status, where `h` is what it has called. -/
inductive MainExits : Int32 → Prop where
  /-- A call that ends `main` has failed, and no other has. -/
  | failed {status : Int32} {e : EptracerEvent} : e ∈ h → EndsWith status e →
      (∀ e' ∈ h, Fails e' → e' = e) → MainExits status
  /-- Loading, attaching or starting a thread has failed. -/
  | cleanedUp : (∀ e ∈ h, ¬ Fails e) → Alone h ∨ (∃ e ∈ h, CreateFails e) → MainExits 0
  /-- The threads have returned. -/
  | joined : (∀ e ∈ h, ¬ Fails e) → Joined h → MainExits 0

end

/-- What `main` guarantees, when `skel` reads what `main` stored last as long as no other
thread was created. -/
def mainContract : Contract eptracerCalls where
  rely h
    | ⟨.getSkel, skel⟩ => Alone h → skel = skelAfter h
    | _ => True
  guar := mainGuar
  exits := MainExits

/-- What the handler guarantees.  It frees the object once, after it has read `skel`,
and ends the process after its `sleep`. -/
def handlerContract : Contract eptracerCalls where
  rely _ _ := True
  guar h e := CleanUpCall e.call ∧ (Frees e → (∀ e ∈ h, ¬ Frees e) ∧ ReadBefore h)
  exits h status := status = 0 ∧ ⟨.sleep, ()⟩ ∈ h

/-- What the stack tracer guarantees.  It uses the object it was given, which is loaded,
and does not end the process. -/
def stackTracerContract : Contract eptracerCalls where
  rely _ _ := True
  guar _
    | ⟨.attachPerfEvent skel _ _, _⟩ => skel = some ⟨true⟩
    | ⟨.mapFd map skel, _⟩ => map = .perfmap ∧ skel = some ⟨true⟩
    | ⟨c, _⟩ => ThreadCall c
  exits _ _ := False

/-- What the system call tracer guarantees.  It ends the process only without a ring
buffer. -/
def syscallTracerContract : Contract eptracerCalls where
  rely _ _ := True
  guar _ e := ThreadCall e.call
  exits h status := status = 0 ∧ ∃ fd, ⟨.ringBufferNew fd, false⟩ ∈ h

/-- The contract of a thread, or of the handler in it. -/
def contracts : Thread → Bool → Contract eptracerCalls
  | _, true => handlerContract
  | .main, false => mainContract
  | .stackTracer, false => stackTracerContract
  | .syscallTracer, false => syscallTracerContract

/-! ## The tracers -/

/-- A tracer polls until it gets an error. -/
theorem perfLoop_wp (h : History eptracerCalls) :
    (Proc.loop .perfBufferPoll goesOn pure : EptracerProc Unit).wp stackTracerContract
      (fun _ _ => True) h := by
  refine ⟨fun _ => True, trivial, fun h _ ret _ => ⟨trivial, ?_⟩⟩
  rw [goesOn]
  split <;> trivial

theorem ringLoop_wp (h : History eptracerCalls) :
    (Proc.loop .ringBufferPoll goesOn pure : EptracerProc Unit).wp syscallTracerContract
      (fun _ _ => True) h := by
  refine ⟨fun _ => True, trivial, fun h _ ret _ => ⟨trivial, ?_⟩⟩
  rw [goesOn]
  split <;> trivial

theorem setUpCpusProc_wp (args : StackTracerArgs) (cpus : List Nat) (h : History eptracerCalls) :
    (setUpCpusProc args (some ⟨true⟩) cpus).wp stackTracerContract (fun _ _ => True) h := by
  induction cpus generalizing h with
  | nil => trivial
  | cons cpu cpus ih =>
      simp only [setUpCpusProc, perform, Proc.perform, Proc.call_bind, Proc.ret_bind]
      split
      next => exact ih h
      next =>
        split
        next => exact ih h
        next =>
          refine Proc.wp_call.mpr fun perfd _ => ⟨trivial, ?_⟩
          split
          next => exact fun _ _ => ⟨trivial, trivial⟩
          next =>
            refine fun link _ => ⟨rfl, ?_⟩
            cases link with
            | false => trivial
            | true => exact ih _

theorem stackTracerProc_wp (args : StackTracerArgs) :
    (stackTracerProc args (some ⟨true⟩)).wp stackTracerContract (fun _ _ => True) [] := by
  simp only [stackTracerProc, perform, Proc.perform, Proc.call_bind, Proc.ret_bind]
  refine Proc.wp_bind_iff.mpr (Proc.wp_mono ?_ (setUpCpusProc_wp args _ []))
  intro done h _
  cases done with
  | false => trivial
  | true =>
      refine fun symbolizer _ => ⟨trivial, ?_⟩
      cases symbolizer with
      | false => exact fun _ _ => ⟨trivial, trivial⟩
      | true =>
          refine fun fd _ => ⟨⟨rfl, rfl⟩, fun buffer _ => ⟨trivial, ?_⟩⟩
          cases buffer with
          | false => exact fun _ _ => ⟨trivial, trivial⟩
          | true => exact perfLoop_wp _

theorem syscallTracerProc_wp (skel : Option EptracerBpf) :
    (syscallTracerProc skel).wp syscallTracerContract (fun _ _ => True) [] := by
  simp only [syscallTracerProc, perform, Proc.perform, Proc.call_bind, Proc.ret_bind]
  refine fun fd _ => ⟨trivial, fun buffer _ => ⟨trivial, ?_⟩⟩
  cases buffer with
  | false => exact fun _ _ => ⟨trivial, rfl, fd, by simp⟩
  | true => exact ringLoop_wp _

/-! ## `cleanup` -/

/-- The end of `cleanup` after its calls `l`. -/
theorem cleanup_end_wp {C : Contract eptracerCalls} {Q : Unit → History eptracerCalls → Prop}
    {h l : History eptracerCalls}
    (hplain : ∀ h e, CleanUpCall e.call → ¬ Frees e → C.guar h e)
    (hexits : ∀ l, (∀ e ∈ l, CleanUpCall e.call) → ⟨.sleep, ()⟩ ∈ l → C.exits (h ++ l) 0)
    (hl : ∀ e ∈ l, CleanUpCall e.call) :
    (.call .sleep fun _ => .call (.printf "[+] Bye!") fun _ => .exit 0 : EptracerProc Unit).wp
      C Q (h ++ l) := by
  refine fun _ _ => ⟨hplain _ _ trivial (by simp [Frees]), fun _ _ =>
    ⟨hplain _ _ trivial (by simp [Frees]), ?_⟩⟩
  rw [Proc.wp_exit, List.append_assoc, List.append_assoc]
  refine hexits _ ?_ (by simp)
  exact List.forall_mem_append.mpr ⟨hl, by simp [CleanUpCall]⟩

/-- `cleanup` frees the object it has read from `skel`, if it was there at the
first read too. -/
theorem cleanup_wp {C : Contract eptracerCalls} {Q : Unit → History eptracerCalls → Prop}
    {h : History eptracerCalls}
    (hplain : ∀ h e, CleanUpCall e.call → ¬ Frees e → C.guar h e)
    (hfree : ∀ obj, C.rely h ⟨.getSkel, some obj⟩ → ∀ l, (∀ e ∈ l, CleanUpCall e.call) →
      (∀ e ∈ l, ¬ Frees e) → ReadBefore (h ++ l) → C.guar (h ++ l) ⟨.freeObject, ()⟩)
    (hexits : ∀ l, (∀ e ∈ l, CleanUpCall e.call) → ⟨.sleep, ()⟩ ∈ l → C.exits (h ++ l) 0) :
    cleanup.wp C Q h := by
  simp only [cleanup, perform, Proc.perform, Proc.call_bind, Proc.ret_bind]
  refine Proc.wp_call.mpr fun skel hrely => ⟨hplain _ _ trivial (by simp [Frees]), ?_⟩
  cases skel with
  | none => exact cleanup_end_wp hplain hexits (by simp [CleanUpCall])
  | some obj =>
      refine Proc.wp_call.mpr fun skel _ => ⟨hplain _ _ trivial (by simp [Frees]), ?_⟩
      -- what is left when the object has been destroyed
      have hend (l : History eptracerCalls) (hl : ∀ e ∈ l, CleanUpCall e.call) :
          (.call (.setSkel none) fun _ => .call .sleep fun _ => .call (.printf "[+] Bye!")
            fun _ => .exit 0 : EptracerProc Unit).wp C Q (h ++ l) := by
        refine fun _ _ => ⟨hplain _ _ trivial (by simp [Frees]), ?_⟩
        rw [List.append_assoc]
        exact cleanup_end_wp hplain hexits (List.forall_mem_append.mpr ⟨hl, by simp [CleanUpCall]⟩)
      rw [List.append_assoc]
      cases skel with
      | none => exact hend _ (by simp [CleanUpCall])
      | some obj' =>
          have hread (l : History eptracerCalls) (hl : ∀ e ∈ l, e.call ≠ .getSkel) :
              ReadBefore (h ++ ([⟨.getSkel, some obj⟩] ++ ⟨.getSkel, some obj'⟩ :: l)) :=
            ⟨h ++ [⟨.getSkel, some obj⟩], obj', l, by simp, hl⟩
          simp only [destroy, perform, Proc.perform, Proc.call_bind, Proc.ret_bind]
          cases hskel : obj'.skeleton with
          | false =>
              refine fun _ _ => ⟨hfree obj hrely _ (by simp [CleanUpCall]) (by simp [Frees])
                (hread [] (by simp)), ?_⟩
              rw [List.append_assoc]
              exact hend _ (by simp [CleanUpCall])
          | true =>
              refine fun _ _ => ⟨hplain _ _ trivial (by simp [Frees]), fun _ _ => ⟨?_, ?_⟩⟩
              · rw [List.append_assoc]
                exact hfree obj hrely _ (by simp [CleanUpCall]) (by simp [Frees])
                  (hread [⟨.destroySkeleton true, ()⟩] (by simp))
              · rw [List.append_assoc, List.append_assoc]
                exact hend _ (by simp [CleanUpCall])

theorem handler_wp : cleanup.wp handlerContract (fun _ _ => True) [] := by
  refine cleanup_wp ?_ ?_ ?_
  · exact fun h e hcall hfree => ⟨hcall, fun h => absurd h hfree⟩
  · exact fun obj _ l _ hfree hread => ⟨trivial, fun _ => ⟨hfree, hread⟩⟩
  · exact fun _ _ hsleep => ⟨rfl, hsleep⟩

end EPtracer
