import EPtracer.Lib.Procedure
import EPtracer.Lib.Trace
import EPtracer.Spawn.GetPid
import EPtracer.Stack.Delivery

/-!
# The skeleton

`eptracer.skel.h` has the procedures that make the BPF object from the program's
image and take it down.  The object, its skeleton and the two arrays of the
skeleton are blocks of their own.  `eptracer_bpf__destroy` releases what the
object points to, and an object gets its skeleton only when the arrays are there.

`open_and_load_all_or_nothing` is about every way the calls can fail.
-/

namespace EPtracer

open CText Procedure Trace

/-! ## The calls of the tracer -/

/-- `struct eptracer_bpf`, as far as the procedures look at it. -/
structure EptracerBpf where
  /-- `obj->skeleton` is set. -/
  skeleton : Bool
deriving DecidableEq

/-- What `calloc` is called for. -/
inductive Block where
  | object | skeleton | maps | progs
deriving DecidableEq

/-- The maps whose descriptors are used. -/
inductive SkelMap where
  | programMap | perfmap | syscallRbMap
deriving DecidableEq

/-- What the command line sets. -/
structure Options where
  logFile : CStr
  program : CStr
  processPid : CStr
  showStacktrace : Int32
  showSyscall : Int32

/-- What `argparse_parse` does: with `--help` or an unknown option it does not
return. -/
inductive Parsed where
  | exits (status : Int32)
  | options (args : Options)

/-- What `parse_cpu_mask_file` gives. -/
structure CpuMask where
  err : Int32
  onlineMask : List Bool

/-- What the calls of `get_PID_to_trace` return to the process that goes on as
the tracer, and what its variable holds before. -/
structure TracerSpawn where
  calls : SpawnCalls
  pidToTrace : Buf 4
  parent : calls.fork ≠ 0

/-- The threads of the process. -/
inductive Thread where
  | main | stackTracer | syscallTracer
deriving DecidableEq

/-- The routine and the argument of a thread. -/
inductive Start where
  | stackTracer (args : StackTracerArgs) (skel : Option EptracerBpf)
  | syscallTracer (skel : Option EptracerBpf)

/-- The thread that runs the routine. -/
def Start.thread : Start → Thread
  | .stackTracer _ _ => .stackTracer
  | .syscallTracer _ => .syscallTracer

/-- The calls of `main`, of the tracers and of `cleanup`.  A pointer to the
object is `none` if it is null. -/
inductive EptracerCall where
  | signal
  | parseCpuMaskFile
  | numPossibleCpus
  | argparseParse
  | fopen (logFile : CStr)
  | logAddFp
  | setPrint
  | calloc (block : Block)
  | openSkeleton
  | loadSkeleton
  | attachSkeleton (skel : Option EptracerBpf)
  /-- `bpf_object__destroy_skeleton`, which does nothing with a null pointer. -/
  | destroySkeleton (skeleton : Bool)
  | freeObject
  | getSkel
  | setSkel (skel : Option EptracerBpf)
  /-- The calls of `get_PID_to_trace`. -/
  | spawn (args : Arguments)
  | printPid (processId : Option CStr)
  /-- `bpf_map__fd(skel->maps.…)`. -/
  | mapFd (map : SkelMap) (skel : Option EptracerBpf)
  | mapUpdateElem (fd : Int32) (name : ProgramName)
  | pthreadCreate (start : Start)
  | pthreadJoin (thread : Thread)
  | perfEventOpen (cpu : Nat)
  | attachPerfEvent (skel : Option EptracerBpf) (cpu : Nat) (perfd : Int32)
  | symbolizerNew
  | perfBufferNew (fd : Int32)
  | perfBufferPoll
  | ringBufferNew (fd : Int32)
  | ringBufferPoll
  | logError (text : String)
  | printf (text : String)
  | sleep

/-- What each call returns.  A call that returns a pointer says whether it is not null. -/
abbrev eptracerCalls : Interface where
  Call := EptracerCall
  Answer
    | .parseCpuMaskFile => CpuMask
    | .argparseParse => Parsed
    | .spawn _ => TracerSpawn
    | .getSkel => Option EptracerBpf
    | .numPossibleCpus | .logAddFp | .openSkeleton | .loadSkeleton | .attachSkeleton _
    | .mapFd _ _ | .mapUpdateElem _ _ | .pthreadCreate _ | .perfBufferPoll
    | .ringBufferPoll => Int32
    | .perfEventOpen _ => Int64
    | .fopen _ | .calloc _ | .attachPerfEvent _ _ _ | .symbolizerNew | .perfBufferNew _
    | .ringBufferNew _ => Bool
    | .signal | .setPrint | .destroySkeleton _ | .freeObject | .setSkel _ | .pthreadJoin _
    | .printPid _ | .logError _ | .printf _ | .sleep => Unit

/-- A procedure of the process. -/
abbrev EptracerProc := Proc eptracerCalls

/-- A call of the process, with its answer. -/
abbrev EptracerEvent := Event eptracerCalls

/-- The procedure that makes one call. -/
def perform (c : EptracerCall) : EptracerProc (eptracerCalls.Answer c) :=
  Proc.perform (I := eptracerCalls) c

/-! ## The code -/

/-- `ENOMEM`. -/
def enomem : Int32 := 12

/-- `eptracer_bpf__destroy(obj)`. -/
def destroy : Option EptracerBpf → EptracerProc Unit
  | none => pure ()
  | some obj => do
      if obj.skeleton then perform (.destroySkeleton true)
      perform .freeObject

/-- The end of `eptracer_bpf__create_skeleton` after a failed `calloc`, with
whether `s` is set. -/
def createSkeletonErr (s : Bool) (obj : EptracerBpf) : EptracerProc (Int32 × EptracerBpf) := do
  perform (.destroySkeleton s)
  return (-enomem, obj)

/-- `eptracer_bpf__create_skeleton(obj)`. -/
def createSkeleton (obj : EptracerBpf) : EptracerProc (Int32 × EptracerBpf) := do
  if !(← perform (.calloc .skeleton)) then createSkeletonErr false obj
  else if !(← perform (.calloc .maps)) then createSkeletonErr true obj
  else if !(← perform (.calloc .progs)) then createSkeletonErr true obj
  else return (0, { obj with skeleton := true })

/-- A null pointer, with `errno`, after the object has been destroyed. -/
def errOut (obj : EptracerBpf) (err : Int32) : EptracerProc (Except Int32 EptracerBpf) := do
  destroy (some obj)
  return .error (-err)

/-- `eptracer_bpf__open()`.  The error is what `errno` is set to. -/
def openSkel : EptracerProc (Except Int32 EptracerBpf) := do
  if !(← perform (.calloc .object)) then return .error enomem
  else
    let (err, obj) ← createSkeleton ⟨false⟩
    if err ≠ 0 then errOut obj err
    else
      let err ← perform .openSkeleton
      if err ≠ 0 then errOut obj err
      else return .ok obj

/-- `eptracer_bpf__open_and_load()`. -/
def openAndLoad : EptracerProc (Except Int32 EptracerBpf) := do
  match ← openSkel with
  | .error errno => return .error errno
  | .ok obj =>
      let err ← perform .loadSkeleton
      if err ≠ 0 then errOut obj err
      else return .ok obj

/-! ## What is allocated -/

/-- The blocks that are allocated after a call, where `bpf_object__destroy_skeleton`
frees the skeleton and its arrays. -/
def Block.after (held : List Block) : EptracerEvent → List Block
  | ⟨.calloc block, ok⟩ => if ok then block :: held else held
  | ⟨.destroySkeleton true, _⟩ => held.filter fun block => block = .object
  | ⟨.freeObject, _⟩ => held.filter fun block => block ≠ .object
  | _ => held

/-- The blocks that are allocated after some calls. -/
def Block.held (h : History eptracerCalls) : List Block := h.foldl Block.after []

/-- A release is of something that is allocated. -/
def ReleasesHeld (h : History eptracerCalls) : EptracerEvent → Prop
  | ⟨.destroySkeleton true, _⟩ => Block.skeleton ∈ Block.held h
  | ⟨.freeObject, _⟩ => Block.object ∈ Block.held h
  | _ => True

/-- The calls of the procedures in the skeleton. -/
def LoaderCall : EptracerCall → Prop
  | .calloc _ | .openSkeleton | .loadSkeleton | .destroySkeleton _ | .freeObject => True
  | _ => False

/-- What the procedures of the skeleton guarantee. -/
structure SkeletonGuar (h : History eptracerCalls) (e : EptracerEvent) : Prop where
  call : LoaderCall e.call
  held : ReleasesHeld h e
  once : e.call = .freeObject → ∀ e' ∈ h, e'.call ≠ .freeObject

/-- The contract of the procedures of the skeleton, which do not end the process. -/
def skeletonContract : Contract eptracerCalls where
  rely _ _ := True
  guar := SkeletonGuar
  exits _ _ := False

/-- The call fails, with this in `errno`. -/
def FailsWith (errno : Int32) : EptracerEvent → Prop
  | ⟨.calloc _, ok⟩ => ok = false ∧ errno = enomem
  | ⟨.openSkeleton, err⟩ => err ≠ 0 ∧ errno = -err
  | ⟨.loadSkeleton, err⟩ => err ≠ 0 ∧ errno = -err
  | _ => False

/-- No call has failed. -/
def Succeeded (h : History eptracerCalls) : Prop := ∀ e ∈ h, ∀ errno, ¬ FailsWith errno e

/-- The blocks of an object, which has its skeleton or has not got it yet. -/
def EptracerBpf.blocks (obj : EptracerBpf) : List Block :=
  if obj.skeleton then [.progs, .maps, .skeleton, .object] else [.object]

/-- The blocks of the object are what is allocated. -/
structure EptracerBpf.Held (obj : EptracerBpf) (h : History eptracerCalls) : Prop where
  blocks : Block.held h = obj.blocks
  notFreed : ∀ e ∈ h, e.call ≠ .freeObject

/-- Either nothing has failed and all of the object is there, or nothing is left
allocated and `errno` is the one of a call that failed. -/
def AllOrNothingHeld (h : History eptracerCalls) : Except Int32 EptracerBpf → Prop
  | .ok obj => obj.skeleton = true ∧ obj.Held h ∧ Succeeded h
  | .error errno => Block.held h = [] ∧ ∃ e ∈ h, FailsWith errno e

theorem Block.held_append (h h' : History eptracerCalls) :
    Block.held (h ++ h') = h'.foldl Block.after (Block.held h) :=
  List.foldl_append

theorem EptracerBpf.Held.snoc {obj obj' : EptracerBpf} {h : History eptracerCalls}
    (hheld : obj.Held h) {e : EptracerEvent} (he : e.call ≠ .freeObject)
    (hblocks : Block.after obj.blocks e = obj'.blocks) : obj'.Held (h ++ [e]) where
  blocks := by
    rw [Block.held_append, hheld.blocks]
    exact hblocks
  notFreed := forall_mem_snoc hheld.notFreed he

/-! ## The procedures -/

theorem destroy_wp {obj : EptracerBpf} {h : History eptracerCalls} (hheld : obj.Held h) :
    (destroy (some obj)).wp skeletonContract
      (fun _ h' => Block.held h' = [] ∧ ∀ e ∈ h, e ∈ h') h := by
  obtain ⟨hblocks, hfreed⟩ := hheld
  simp only [destroy, perform, Proc.perform, Proc.call_bind, Proc.ret_bind]
  cases hskel : obj.skeleton with
  | true =>
      rw [EptracerBpf.blocks, hskel] at hblocks
      refine fun _ _ => ⟨⟨trivial, ?_, ?_⟩, fun _ _ => ⟨⟨trivial, ?_, fun _ => ?_⟩, ?_, ?_⟩⟩
      · simp [ReleasesHeld, hblocks]
      · exact by simp
      · simp [ReleasesHeld, Block.held_append, Block.after, hblocks]
      · exact forall_mem_snoc hfreed (by simp)
      · simp [Block.held_append, Block.after, hblocks]
      · exact fun e he => by simp [he]
  | false =>
      rw [EptracerBpf.blocks, hskel] at hblocks
      refine fun _ _ => ⟨⟨trivial, ?_, fun _ => hfreed⟩, ?_, ?_⟩
      · simp [ReleasesHeld, hblocks]
      · simp [Block.held_append, Block.after, hblocks]
      · exact fun e he => by simp [he]

theorem errOut_wp {obj : EptracerBpf} {err : Int32} {h : History eptracerCalls}
    (hheld : obj.Held h) (hfails : ∃ e ∈ h, FailsWith (-err) e) :
    (errOut obj err).wp skeletonContract (fun r h => AllOrNothingHeld h r) h := by
  obtain ⟨e, he, hfails⟩ := hfails
  refine Proc.wp_bind_iff.mpr (Proc.wp_mono ?_ (destroy_wp hheld))
  rintro - h' ⟨hnone, hmem⟩
  exact ⟨hnone, e, hmem e he, hfails⟩

/-- What has been allocated for a skeleton is released when it is not made. -/
theorem createSkeletonErr_wp {s : Bool} {h : History eptracerCalls}
    (hblocks : Block.after (Block.held h) ⟨.destroySkeleton s, ()⟩ = [.object])
    (hskel : s = true → Block.skeleton ∈ Block.held h) (hfreed : ∀ e ∈ h, e.call ≠ .freeObject)
    (hfails : ∃ e ∈ h, FailsWith enomem e) :
    (createSkeletonErr s ⟨false⟩).wp skeletonContract
      (fun r h => r.1 ≠ 0 ∧ r.2.Held h ∧ ∃ e ∈ h, FailsWith (-r.1) e) h := by
  obtain ⟨e, he, hfails⟩ := hfails
  simp only [createSkeletonErr, perform, Proc.perform, Proc.call_bind, Proc.ret_bind]
  refine fun _ _ => ⟨⟨trivial, ?_, by simp⟩, by decide, ⟨?_, ?_⟩, e, by simp [he], hfails⟩
  · cases s with
    | true => exact hskel rfl
    | false => trivial
  · rw [Block.held_append]
    exact hblocks
  · exact forall_mem_snoc hfreed (by simp)

theorem createSkeleton_wp {h : History eptracerCalls} (hheld : EptracerBpf.Held ⟨false⟩ h)
    (hh : Succeeded h) :
    (createSkeleton ⟨false⟩).wp skeletonContract
      (fun r h => (r.1 = 0 ∧ r.2.skeleton = true ∧ r.2.Held h ∧ Succeeded h) ∨
        (r.1 ≠ 0 ∧ r.2.Held h ∧ ∃ e ∈ h, FailsWith (-r.1) e)) h := by
  obtain ⟨hblocks, hfreed⟩ := hheld
  have hfails (h : History eptracerCalls) (block : Block) :
      ∃ e ∈ h ++ [⟨.calloc block, false⟩], FailsWith enomem e :=
    ⟨_, List.mem_append_right h List.mem_cons_self, rfl, rfl⟩
  have hworks (block : Block) (errno : Int32) : ¬ FailsWith errno ⟨.calloc block, true⟩ :=
    fun h => Bool.noConfusion h.1
  have hcalloc {h : History eptracerCalls} (hfreed : ∀ e ∈ h, e.call ≠ .freeObject)
      (block : Block) (ok : Bool) :
      ∀ e ∈ h ++ [⟨.calloc block, ok⟩], e.call ≠ .freeObject :=
    forall_mem_snoc hfreed (by simp)
  have hguar (h : History eptracerCalls) (block : Block) (ok : Bool) :
      SkeletonGuar h ⟨.calloc block, ok⟩ := ⟨trivial, trivial, by simp⟩
  simp only [EptracerBpf.blocks, Bool.false_eq_true, if_false] at hblocks
  simp only [createSkeleton, perform, Proc.perform, Proc.call_bind, Proc.ret_bind]
  refine fun s _ => ⟨hguar _ _ _, ?_⟩
  cases s with
  | false =>
      refine Proc.wp_mono (fun _ _ => .inr)
        (createSkeletonErr_wp ?_ ?_ (hcalloc hfreed _ _) (hfails h .skeleton))
      all_goals simp [Block.held_append, Block.after, hblocks]
  | true =>
      refine fun maps _ => ⟨hguar _ _ _, ?_⟩
      cases maps with
      | false =>
          refine Proc.wp_mono (fun _ _ => .inr) (createSkeletonErr_wp ?_ ?_
            (hcalloc (hcalloc hfreed _ _) _ _) (hfails _ .maps))
          all_goals simp [Block.held_append, Block.after, hblocks]
      | true =>
          refine fun progs _ => ⟨hguar _ _ _, ?_⟩
          cases progs with
          | false =>
              refine Proc.wp_mono (fun _ _ => .inr) (createSkeletonErr_wp ?_ ?_
                (hcalloc (hcalloc (hcalloc hfreed _ _) _ _) _ _) (hfails _ .progs))
              all_goals simp [Block.held_append, Block.after, hblocks]
          | true =>
              refine .inl ⟨rfl, rfl, ⟨?_, hcalloc (hcalloc (hcalloc hfreed _ _) _ _) _ _⟩, ?_⟩
              · simp [Block.held_append, Block.after, hblocks, EptracerBpf.blocks]
              · exact forall_mem_snoc (forall_mem_snoc (forall_mem_snoc hh (hworks _))
                  (hworks _)) (hworks _)

/-- The object is returned or destroyed after a call that gives an error code. -/
theorem afterStep_wp {obj : EptracerBpf} {err : Int32} {e : EptracerEvent}
    {h : History eptracerCalls} (hskel : obj.skeleton = true) (hheld : obj.Held (h ++ [e]))
    (hh : Succeeded h) (he : ∀ errno, FailsWith errno e ↔ err ≠ 0 ∧ errno = -err) :
    (if err ≠ 0 then errOut obj err else return .ok obj : EptracerProc _).wp skeletonContract
      (fun r h => AllOrNothingHeld h r) (h ++ [e]) := by
  split
  next herr =>
    exact errOut_wp hheld ⟨e, List.mem_append_right h List.mem_cons_self, (he _).mpr ⟨herr, rfl⟩⟩
  next herr =>
    exact ⟨hskel, hheld, forall_mem_snoc hh fun errno hfails => herr ((he errno).mp hfails).1⟩

theorem openSkel_wp : openSkel.wp skeletonContract (fun r h => AllOrNothingHeld h r) [] := by
  simp only [openSkel, perform, Proc.perform, Proc.call_bind, Proc.ret_bind]
  refine fun object _ => ⟨⟨trivial, trivial, by simp⟩, ?_⟩
  cases object with
  | false => exact ⟨rfl, _, List.mem_cons_self, rfl, rfl⟩
  | true =>
      have hfirst : Succeeded [⟨.calloc .object, true⟩] :=
        List.forall_mem_singleton.mpr fun _ h => Bool.noConfusion h.1
      have hheld : EptracerBpf.Held ⟨false⟩ [⟨.calloc .object, true⟩] :=
        ⟨rfl, List.forall_mem_singleton.mpr (by simp)⟩
      refine Proc.wp_bind_iff.mpr (Proc.wp_mono ?_ (createSkeleton_wp hheld hfirst))
      rintro ⟨err, obj⟩ h (⟨rfl, hskel, hheld, hh⟩ | ⟨herr, hheld, hfails⟩)
      · refine fun err _ => ⟨⟨trivial, trivial, by simp⟩, ?_⟩
        exact afterStep_wp hskel (hheld.snoc (by simp) rfl) hh fun errno => Iff.rfl
      · rw [if_pos herr]
        exact errOut_wp hheld hfails

theorem openAndLoad_wp : openAndLoad.wp skeletonContract (fun r h => AllOrNothingHeld h r) [] := by
  simp only [openAndLoad, perform, Proc.perform, Proc.call_bind, Proc.ret_bind]
  refine Proc.wp_bind_iff.mpr (Proc.wp_mono ?_ openSkel_wp)
  intro r h hr
  cases r with
  | error errno => exact hr
  | ok obj =>
      obtain ⟨hskel, hheld, hh⟩ := hr
      refine fun err _ => ⟨⟨trivial, trivial, by simp⟩, ?_⟩
      exact afterStep_wp hskel (hheld.snoc (by simp) rfl) hh fun errno => Iff.rfl

/-! ## No loops -/

open Proc in
theorem destroy_loopFree (skel : Option EptracerBpf) : (destroy skel).LoopFree := by
  cases skel with
  | none => trivial
  | some obj =>
      simp only [destroy]
      exact .ite (.bind (.perform _) fun _ => .perform _) (.perform _)

theorem errOut_loopFree (obj : EptracerBpf) (err : Int32) : (errOut obj err).LoopFree :=
  .bind (destroy_loopFree _) fun _ => .pure _

theorem createSkeleton_loopFree (obj : EptracerBpf) : (createSkeleton obj).LoopFree := by
  have herr (s : Bool) : (createSkeletonErr s obj).LoopFree :=
    .bind (.perform _) fun _ => .pure _
  exact .bind (.perform _) fun _ => .ite (herr _) <|
    .bind (.perform _) fun _ => .ite (herr _) <|
    .bind (.perform _) fun _ => .ite (herr _) (.pure _)

theorem openAndLoad_loopFree : openAndLoad.LoopFree := by
  have hopen : openSkel.LoopFree :=
    .bind (.perform _) fun _ => .ite (.pure _) <|
    .bind (createSkeleton_loopFree _) fun _ => .ite (errOut_loopFree _ _) <|
    .bind (.perform _) fun _ => .ite (errOut_loopFree _ _) (.pure _)
  refine .bind hopen fun r => ?_
  cases r with
  | error errno => exact .pure _
  | ok obj => exact .bind (.perform _) fun _ => .ite (errOut_loopFree _ _) (.pure _)

/-! ## All or nothing -/

/-- **All or nothing.**  However the calls fail, `eptracer_bpf__open_and_load`
returns an object that is all there, or it has released everything and `errno` is
that of the call that failed.  Destroying the object releases everything.  Nothing
is released that is not allocated. -/
theorem open_and_load_all_or_nothing {l : History eptracerCalls} {r : Except Int32 EptracerBpf}
    (he : openAndLoad.Exec l (.ret r)) :
    AllOrNothingHeld l r ∧ Trace.Each ReleasesHeld l ∧
      ∀ obj, r = .ok obj → ∀ l', (destroy (some obj)).Exec l' (.ret ()) →
        Block.held (l ++ l') = [] ∧
        ∀ before e after, l' = before ++ e :: after → ReleasesHeld (l ++ before) e := by
  obtain ⟨hend, hguar⟩ := Proc.wp_exec openAndLoad_wp he fun _ _ _ _ => trivial
  refine ⟨hend, fun before e after hl => (hguar before e after hl).held, ?_⟩
  rintro obj rfl l' he'
  have hheld : obj.Held l := hend.2.1
  obtain ⟨hdestroyed, hguar⟩ := Proc.wp_exec (destroy_wp hheld) he' fun _ _ _ _ => trivial
  exact ⟨hdestroyed.1, fun before e after hl => (hguar before e after hl).held⟩

/-- There is no memory for the second array. -/
def noMemory : History eptracerCalls :=
  [⟨.calloc .object, true⟩, ⟨.calloc .skeleton, true⟩, ⟨.calloc .maps, true⟩,
    ⟨.calloc .progs, false⟩, ⟨.destroySkeleton true, ()⟩, ⟨.freeObject, ()⟩]

theorem openAndLoad_noMemory : openAndLoad.Exec noMemory (.ret (.error enomem)) :=
  .call <| .call <| .call <| .call <| .call <| .call <| .refl _

theorem open_and_load_all_or_nothing_noMemory :
    AllOrNothingHeld noMemory (.error enomem) ∧ Trace.Each ReleasesHeld noMemory :=
  have h := open_and_load_all_or_nothing openAndLoad_noMemory
  ⟨h.1, h.2.1⟩

end EPtracer
