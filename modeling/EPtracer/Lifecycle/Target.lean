import EPtracer.Lifecycle.Lifetime
import EPtracer.Stack.Sample
import EPtracer.Syscall.Stream

/-!
# What is traced

`main` writes `program_map` at most once, and before it attaches the programs.  No
other procedure of the process writes it.  So the programs run with one value of
the map, and this value is the identifier that `get_PID_to_trace` has given.

`only_target_traced` puts this together with the programs.  In every run of the
process and in every run of the programs with the map it has made, what is reported
is of a task the identifier matches: its name is the identifier, or its PID is the
number in front of it, modulo `2 ^ 64`.
-/

namespace EPtracer

open CText Procedure Process Trace

/-! ## The calls that matter -/

/-- The call writes `program_map`, or starts the programs that read it. -/
def SetsTarget : EptracerCall → Prop
  | .mapUpdateElem _ _ | .attachSkeleton _ => True
  | _ => False

/-- The call leaves `program_map`, and does not start its readers. -/
abbrev NotTarget (c : EptracerCall) : Prop := ¬ SetsTarget c

/-- `get_PID_to_trace` has given the identifier, and it fits into an entry of
`program_map`. -/
def Identified (h : History eptracerCalls) (identifier : CStr) : Prop :=
  identifier.bytes.length ≤ maxProgramStringLen ∧
  ∃ (args : Options) (spawn : TracerSpawn) (region : Bytes),
    ⟨.argparseParse, .options args⟩ ∈ h ∧ ⟨.spawn args.toArguments, spawn⟩ ∈ h ∧
    getPidToTrace args.toArguments spawn.calls spawn.pidToTrace = .str region ∧
    identifier = regionStr region

/-- The map is written once, with the identifier, and the programs are attached after
that. -/
def targetGuar (h : History eptracerCalls) : EptracerEvent → Prop
  | ⟨.mapUpdateElem _ name, _⟩ => (∀ e ∈ h, NotTarget e.call) ∧
      ∃ identifier, Identified h identifier ∧ name = strncpy maxProgramStringLen identifier
  | ⟨.attachSkeleton _, _⟩ => ∃ (fd : Int32) (name : ProgramName) (bpfError : Int32),
      ⟨.mapUpdateElem fd name, bpfError⟩ ∈ h ∧ ¬ bpfError < 0
  | _ => True

/-- `main` alone writes the map and attaches the programs. -/
def targetContracts : Thread → Bool → Contract eptracerCalls
  | .main, false => ⟨fun _ _ => True, targetGuar, fun _ _ => True⟩
  | _, _ => ⟨fun _ _ => True, fun _ e => NotTarget e.call, fun _ _ => True⟩

theorem targetGuar_of_notTarget {h : History eptracerCalls} {e : EptracerEvent}
    (he : NotTarget e.call) : targetGuar h e := by
  obtain ⟨c, a⟩ := e
  cases c with
  | mapUpdateElem | attachSkeleton => exact absurd trivial he
  | _ => trivial

/-! ## The procedures that leave the map -/

section

open Proc

theorem destroy_makes (skel : Option EptracerBpf) : (destroy skel).Makes NotTarget := by
  cases skel with
  | none => trivial
  | some obj =>
      simp only [destroy]
      exact .ite (.bind (.perform id) fun _ => .perform id) (.perform id)

theorem cleanup_makes : cleanup.Makes NotTarget := by
  have hend : (do perform .sleep; perform (.printf "[+] Bye!"); .exit 0 :
      EptracerProc Unit).Makes NotTarget :=
    .bind (.perform id) fun _ => .bind (.perform id) fun _ => trivial
  exact .bind (.perform id) fun _ => .ite
    (.bind (.perform id) fun _ => .bind (destroy_makes _) fun _ =>
      .bind (.perform id) fun _ => hend)
    hend

theorem failMain_makes (text : String) : (failMain text).Makes NotTarget :=
  .bind (.perform id) fun _ => .bind cleanup_makes fun _ => .pure _

theorem openAndLoad_makes : openAndLoad.Makes NotTarget := by
  refine openAndLoad_loopFree.makes fun l q e q' he hs => ?_
  have hguar := (Proc.wp_exec openAndLoad_wp (he.snoc hs) fun _ _ _ _ => trivial).2 l e [] rfl
  obtain ⟨c, a⟩ := e
  cases c with
  | mapUpdateElem | attachSkeleton => exact absurd hguar.call id
  | _ => exact id

theorem loadBPFProgram_makes : loadBPFProgram.Makes NotTarget :=
  .bind (.perform id) fun _ => .ite
    (.bind openAndLoad_makes fun _ => .bind (.perform id) fun _ => .perform id) (.perform id)

theorem setUpCpusProc_makes (args : StackTracerArgs) (skel : Option EptracerBpf)
    (cpus : List Nat) : (setUpCpusProc args skel cpus).Makes NotTarget := by
  induction cpus with
  | nil => trivial
  | cons cpu cpus ih =>
      exact .ite ih <| .ite ih <| .bind (.perform id) fun _ =>
        .ite (.bind (.perform id) fun _ => .pure _) <|
        .bind (.perform id) fun _ => .ite (.pure _) ih

theorem loop_makes {c : EptracerCall} {turn : eptracerCalls.Answer c → EptracerProc (Option Unit)}
    (hc : NotTarget c) (hturn : ∀ a, (turn a).Makes NotTarget) :
    (.loop c turn pure : EptracerProc Unit).Makes NotTarget :=
  ⟨fun a => ⟨hc, hturn a⟩, fun _ => trivial⟩

theorem start_makes (start : Start) : start.proc.Makes NotTarget := by
  cases start with
  | stackTracer args skel =>
      refine .bind (setUpCpusProc_makes args skel _) fun _ => .ite (.pure _) <|
        .bind (.perform id) fun _ => .ite (.perform id) <|
        .bind (.perform id) fun _ => .bind (.perform id) fun _ => .ite (.perform id) ?_
      exact loop_makes id fun _ => .pure _
  | syscallTracer skel =>
      refine .bind (.perform id) fun _ => .bind (.perform id) fun _ =>
        .ite (.bind (.perform id) fun _ => trivial) ?_
      exact loop_makes id fun _ => .pure _

theorem joinThreads_makes (threads : List Thread) : (joinThreads threads).Makes NotTarget := by
  induction threads with
  | nil => trivial
  | cons thread threads ih => exact .bind (.perform id) fun _ => ih

theorem joinTracers_makes (args : Options) (threads : List Thread) :
    (joinTracers args threads).Makes NotTarget :=
  .ite (.bind (.perform id) fun _ => .pure _) (.bind (joinThreads_makes threads) fun _ => .pure _)

theorem startSyscallTracer_makes (args : Options) (threads : List Thread) :
    (startSyscallTracer args threads).Makes NotTarget :=
  .ite (.bind (.perform id) fun _ => .bind (.perform id) fun _ =>
    .ite (failMain_makes _) (joinTracers_makes _ _)) (joinTracers_makes _ _)

theorem startTracers_makes (args : Options) (tracerArgs : StackTracerArgs) :
    (startTracers args tracerArgs).Makes NotTarget :=
  .ite (.bind (.perform id) fun _ => .bind (.perform id) fun _ =>
    .ite (failMain_makes _) (startSyscallTracer_makes _ _)) (startSyscallTracer_makes _ _)

end

/-! ## `main` -/

/-- Neither the map nor the programs have been touched. -/
def Untouched (h : History eptracerCalls) : Prop := ∀ e ∈ h, NotTarget e.call

theorem Untouched.snoc {h : History eptracerCalls} (hh : Untouched h) {e : EptracerEvent}
    (he : NotTarget e.call) : Untouched (h ++ [e]) :=
  forall_mem_snoc hh he

theorem notTarget_wp {R : Type} {p : EptracerProc R} (hp : p.Makes NotTarget)
    {Q : R → History eptracerCalls → Prop} {h : History eptracerCalls}
    (hQ : ∀ r l, Untouched l → Q r (h ++ l)) : p.wp (targetContracts .main false) Q h :=
  hp.wp (fun _ _ he => targetGuar_of_notTarget he) (fun _ _ => trivial) hQ

theorem attachMain_target {args : Options} {tracerArgs : StackTracerArgs}
    {h : History eptracerCalls} {fd bpfError : Int32} {name : ProgramName}
    (hupdate : ⟨.mapUpdateElem fd name, bpfError⟩ ∈ h) (hok : ¬ bpfError < 0) :
    (attachMain args tracerArgs).wp (targetContracts .main false) (fun _ _ => True) h := by
  simp only [attachMain, perform, Proc.perform, Proc.call_bind, Proc.ret_bind]
  refine fun skel _ => ⟨trivial, Proc.wp_call.mpr fun errno _ => ⟨?_, ?_⟩⟩
  · exact ⟨fd, name, bpfError, List.mem_append_left _ hupdate, hok⟩
  · exact notTarget_wp (.ite (failMain_makes _) (startTracers_makes _ _)) fun _ _ _ => trivial

theorem initializeArrayProc_target {fd : Int32} {identifier : CStr} {h : History eptracerCalls}
    (hh : Untouched h)
    (hidentified : identifier.bytes.length ≤ maxProgramStringLen → Identified h identifier) :
    (initializeArrayProc fd identifier).wp (targetContracts .main false)
      (fun bpfError h' => ¬ bpfError < 0 →
        ∃ name, ⟨.mapUpdateElem fd name, bpfError⟩ ∈ h') h := by
  simp only [initializeArrayProc, perform, Proc.perform, Proc.call_bind, Proc.ret_bind]
  split
  next => exact fun _ _ => ⟨trivial, fun h => absurd (by decide) h⟩
  next hlen =>
    have hidentified := hidentified (Nat.not_lt.mp hlen)
    refine Proc.wp_call.mpr fun bpfError _ => ⟨⟨hh, identifier, hidentified, rfl⟩, ?_⟩
    split
    next hneg => exact fun _ _ => ⟨trivial, fun h => absurd hneg h⟩
    next => exact fun _ => ⟨_, List.mem_append_right _ List.mem_cons_self⟩

theorem targetMain_target {args : Options} {tracerArgs : StackTracerArgs}
    {h : History eptracerCalls} (hh : Untouched h)
    (hparsed : ⟨.argparseParse, .options args⟩ ∈ h) :
    (targetMain args tracerArgs).wp (targetContracts .main false) (fun _ _ => True) h := by
  simp only [targetMain, getPidToTraceProc, perform, Proc.perform, Proc.call_bind, Proc.ret_bind]
  refine Proc.wp_call.mpr fun spawn _ => ⟨trivial, ?_⟩
  cases hresult : getPidToTrace args.toArguments spawn.calls spawn.pidToTrace with
  | exit => trivial
  | null | executed =>
      exact fun _ _ => ⟨trivial, notTarget_wp (failMain_makes _) fun _ _ _ => trivial⟩
  | str region =>
      refine fun _ _ => ⟨trivial, fun skel _ => ⟨trivial, fun fd _ => ⟨trivial, ?_⟩⟩⟩
      refine Proc.wp_bind_iff.mpr (Proc.wp_mono ?_ (initializeArrayProc_target ?_ ?_))
      · intro bpfError h' hstored
        split
        next => exact notTarget_wp (failMain_makes _) fun _ _ _ => trivial
        next hok =>
          obtain ⟨name, hupdate⟩ := hstored hok
          exact attachMain_target hupdate hok
      · exact (((hh.snoc id).snoc id).snoc id).snoc id
      · exact fun hlen => ⟨hlen, args, spawn, region, by simp [hparsed], by simp, hresult, rfl⟩

theorem loadMain_target {args : Options} {tracerArgs : StackTracerArgs}
    {h : History eptracerCalls} (hh : Untouched h)
    (hparsed : ⟨.argparseParse, .options args⟩ ∈ h) :
    (loadMain args tracerArgs).wp (targetContracts .main false) (fun _ _ => True) h := by
  simp only [loadMain, perform, Proc.perform, Proc.call_bind, Proc.ret_bind]
  refine fun _ _ => ⟨trivial, Proc.wp_bind_iff.mpr (notTarget_wp loadBPFProgram_makes ?_)⟩
  intro skel l hl
  refine fun _ _ => ⟨trivial, Proc.wp_call.mpr fun skel _ => ⟨trivial, ?_⟩⟩
  split
  next => exact notTarget_wp (failMain_makes _) fun _ _ _ => trivial
  next =>
    refine targetMain_target ?_ (by simp [hparsed])
    have hl : Untouched (h ++ [⟨.setPrint, ()⟩] ++ l) :=
      List.forall_mem_append.mpr ⟨hh.snoc id, hl⟩
    exact (hl.snoc id).snoc id

theorem logMain_target {args : Options} {tracerArgs : StackTracerArgs}
    {h : History eptracerCalls} (hh : Untouched h)
    (hparsed : ⟨.argparseParse, .options args⟩ ∈ h) :
    (logMain args tracerArgs).wp (targetContracts .main false) (fun _ _ => True) h := by
  simp only [logMain, perform, Proc.perform, Proc.call_bind, Proc.ret_bind]
  split
  next =>
    refine Proc.wp_call.mpr fun opened _ => ⟨trivial, ?_⟩
    split
    next => exact fun _ _ => ⟨trivial, trivial⟩
    next =>
      refine Proc.wp_call.mpr fun added _ => ⟨trivial, ?_⟩
      split
      next => exact fun _ _ => ⟨trivial, trivial⟩
      next => exact loadMain_target ((hh.snoc id).snoc id) (by simp [hparsed])
  next => exact loadMain_target hh hparsed

theorem mainProc_target :
    mainProc.wp (targetContracts .main false) (fun _ _ => True) [] := by
  simp only [mainProc, perform, Proc.perform, Proc.call_bind, Proc.ret_bind]
  refine fun _ _ => ⟨trivial, Proc.wp_call.mpr fun online _ => ⟨trivial, ?_⟩⟩
  split
  next => exact fun _ _ => ⟨trivial, trivial⟩
  next =>
    refine Proc.wp_call.mpr fun numCpus _ => ⟨trivial, ?_⟩
    split
    next => exact fun _ _ => ⟨trivial, trivial⟩
    next =>
      refine Proc.wp_call.mpr fun parsed _ => ⟨trivial, ?_⟩
      cases parsed with
      | exits status => trivial
      | options args => exact logMain_target (by simp [Untouched, NotTarget, SetsTarget]) (by simp)

theorem lawful_target : Lawful eptracer targetContracts where
  body := Proc.wp_bind_iff.mpr (Proc.wp_mono (fun _ _ _ => trivial) mainProc_target)
  handler := fun t => by
    cases t <;>
    exact cleanup_makes.wp (fun _ _ he => he) (fun _ _ => trivial) fun _ _ _ => trivial
  starts := by
    intro t b h e u body _ hstarts
    obtain ⟨c, a⟩ := e
    cases c with
    | pthreadCreate start =>
        simp only [eptracer, startedBy, Option.ite_none_right_eq_some, Option.some.injEq,
          Prod.mk.injEq] at hstarts
        obtain ⟨-, rfl, rfl⟩ := hstarts
        cases start <;>
        exact (start_makes _).wp (fun _ _ he => he) (fun _ _ => trivial) fun _ _ _ => trivial
    | _ => cases hstarts
  rely := by
    intro s t b p q e _ _ _ _ _
    cases b with
    | true => cases t <;> trivial
    | false => cases t <;> trivial

/-! ## The map over a run -/

variable {s : EptracerState}

theorem setsTarget_guar (hk : Kept targetContracts s) {before after : List EptracerEntry}
    {x : EptracerEntry} (hlog : s.log = before ++ x :: after) (hsets : SetsTarget x.event.call) :
    x.thread = .main ∧ x.handling = false ∧ targetGuar (own before .main false) x.event := by
  have hguar := hk.calls before x after hlog
  obtain ⟨thread, handling, e⟩ := x
  cases handling with
  | true => cases thread <;> exact absurd hsets hguar
  | false =>
      cases thread with
      | main => exact ⟨rfl, rfl, hguar⟩
      | stackTracer | syscallTracer => exact absurd hsets hguar

/-- The map is written before anything else is done with it. -/
theorem no_mapUpdateElem_after (hk : Kept targetContracts s) {before after : List EptracerEntry}
    {x : EptracerEntry} (hlog : s.log = before ++ x :: after) (hx : SetsTarget x.event.call) :
    ∀ y ∈ after, ∀ fd name, y.event.call ≠ .mapUpdateElem fd name := by
  intro y hy fd name hcall
  obtain ⟨m₁, m₂, rfl⟩ := List.append_of_mem hy
  have hsplit : s.log = (before ++ x :: m₁) ++ y :: m₂ := by simp [hlog]
  obtain ⟨-, -, hguar⟩ := setsTarget_guar hk hsplit (by simp [hcall, SetsTarget])
  obtain ⟨hmain, hhandling, -⟩ := setsTarget_guar hk hlog hx
  obtain ⟨thread, handling, c, a⟩ := y
  obtain rfl : c = .mapUpdateElem fd name := hcall
  refine hguar.1 x.event (mem_own.mpr ?_) hx
  rw [← hmain, ← hhandling]
  exact List.mem_append_right _ List.mem_cons_self

theorem programMapAfter_append {map : ProgramName} {h l : History eptracerCalls}
    (hl : ∀ e ∈ l, ∀ fd name, e.call ≠ .mapUpdateElem fd name) :
    programMapAfter map (h ++ l) = programMapAfter map h := by
  induction l generalizing h with
  | nil => rw [List.append_nil]
  | cons e l ih =>
      rw [List.append_cons, ih fun e he => hl e (List.mem_cons_of_mem _ he), programMapAfter,
        List.foldl_append]
      have he := hl e List.mem_cons_self
      obtain ⟨c, a⟩ := e
      cases c with
      | mapUpdateElem fd name => exact absurd rfl (he fd name)
      | _ => rfl

/-- From when the programs are attached, the map holds the identifier. -/
theorem programMap_fixed (hk : Kept targetContracts s) {before after : List EptracerEntry}
    {x : EptracerEntry} (hlog : s.log = before ++ x :: after) {skel : Option EptracerBpf}
    (hattach : x.event.call = .attachSkeleton skel) :
    ∃ identifier, Identified (own before .main false) identifier ∧
      ∀ map l, before <+: l → l <+: s.log →
        programMapAfter map (l.map Entry.event) = strncpy maxProgramStringLen identifier := by
  obtain ⟨-, -, hguar⟩ := setsTarget_guar hk hlog (by simp [hattach, SetsTarget])
  obtain ⟨thread, handling, c, a⟩ := x
  obtain rfl : c = .attachSkeleton skel := hattach
  obtain ⟨fd, name, bpfError, hupdate, hok⟩ := hguar
  obtain ⟨b₁, b₂, rfl⟩ := List.append_of_mem (mem_own.mp hupdate)
  obtain ⟨-, -, -, identifier, hidentified, rfl⟩ := setsTarget_guar hk
    (hlog.trans (List.append_assoc ..)) trivial
  refine ⟨identifier, ?_, ?_⟩
  · obtain ⟨hlen, args, spawn, region, hparsed, hspawn, hregion, hid⟩ := hidentified
    rw [own_append]
    exact ⟨hlen, args, spawn, region, List.mem_append_left _ hparsed,
      List.mem_append_left _ hspawn, hregion, hid⟩
  · rintro map _ ⟨l, rfl⟩ ⟨l', hprefix⟩
    have hsplit : s.log = b₁ ++ ⟨.main, false, ⟨.mapUpdateElem fd
        (strncpy maxProgramStringLen identifier), bpfError⟩⟩ :: ((b₂ ++ l) ++ l') := by
      simp [← hprefix]
    have hlater : ∀ e ∈ (b₂ ++ l).map Entry.event, ∀ fd name,
        e.call ≠ .mapUpdateElem fd name := by
      intro e he
      obtain ⟨y, hy, rfl⟩ := List.mem_map.mp he
      exact no_mapUpdateElem_after hk hsplit trivial y (List.mem_append_left _ hy)
    rw [List.append_assoc, List.cons_append, List.append_cons, List.map_append,
      programMapAfter_append hlater, programMapAfter, List.map_append, List.foldl_append]
    exact if_neg hok

/-! ## What the programs report -/

/-- The PID of the task is not 0, and the identifier is its name, or starts with
digits that denote its PID modulo `2 ^ 64`. -/
def Task.Matches (t : Task) (identifier : CStr) : Prop :=
  t.tgid ≠ 0 ∧ (t.comm.bytes = identifier.bytes ∨ numericPrefix identifier = t.tgid.toNat)

theorem targetPid_ne_zero_iff {identifier : CStr}
    (hlen : identifier.bytes.length ≤ maxProgramStringLen) (t : Task) :
    targetPid (strncpy maxProgramStringLen identifier) t ≠ 0 ↔ t.Matches identifier := by
  rw [targetPid_eq hlen, Task.Matches]
  split
  next h => simp [h]
  next h => simp [h]

/-- The programs trace the tasks of the identifier and no others, if `entry` is in
`program_map`. -/
structure Traces (entry : ProgramName) (identifier : CStr) : Prop where
  /-- The tasks that are selected. -/
  selected : ∀ t, targetPid entry t ≠ 0 ↔ t.Matches identifier
  /-- The calls whose events are delivered. -/
  reported : ∀ (b : Build) (cap : Nat) (k : TracerState),
    RingBuffer.Reachable cap (sysEnterMultiplexer b entry) k → ∀ i ev, (i, ev) ∈ k.delivered →
      ∃ inv : TracerCall, k.calls[i]? = some inv ∧ inv.call.task.Matches identifier
  /-- The calls that are answered with a signal. -/
  killed : ∀ (b : Build) (cap : Nat) (k : TracerState),
    RingBuffer.Reachable cap (sysEnterMultiplexer b entry) k →
      ∀ i sig, (i, Effect.sendSignal sig) ∈ k.effects →
        ∃ inv : TracerCall, k.calls[i]? = some inv ∧ inv.call.task.Matches identifier ∧ sig = 9 ∧
          b.case inv.call.id = some .nrPtrace
  /-- The samples that are reported. -/
  sampled : ∀ (sample : PerfSample) (data : StackTrace) (flags : UInt64) (e : StackTrace),
    (getStacktrace entry sample data).output = some (flags, e) →
      sample.task.Matches identifier ∧ e.pid = sample.task.tgid.toInt32

theorem traces_strncpy {identifier : CStr}
    (hlen : identifier.bytes.length ≤ maxProgramStringLen) :
    Traces (strncpy maxProgramStringLen identifier) identifier where
  selected := targetPid_ne_zero_iff hlen
  reported := by
    intro b cap k hk i ev hmem
    obtain ⟨inv, hinv, hsub⟩ := delivered_submits hk hmem
    exact ⟨inv, hinv, (targetPid_ne_zero_iff hlen _).mp hsub.filled.1⟩
  killed := by
    intro b cap k hk i sig hmem
    have hi := tracer_invariant hk
    obtain ⟨inv, hinv, hemit⟩ := (hi.effects i _).mp hmem
    obtain ⟨hsel, hcase, hsig⟩ := signalled_call (hi.exec i inv hinv) hemit
    exact ⟨inv, hinv, (targetPid_ne_zero_iff hlen _).mp hsel, hsig, hcase⟩
  sampled := by
    intro sample data flags e he
    have hsel : targetPid (strncpy maxProgramStringLen identifier) sample.task ≠ 0 := by
      intro hzero
      simp [getStacktrace, hzero] at he
    rw [getStacktrace_output hsel, Option.some.injEq, Prod.mk.injEq] at he
    obtain ⟨-, rfl⟩ := he
    exact ⟨(targetPid_ne_zero_iff hlen _).mp hsel, congrArg _ (targetPid_eq_tgid hsel)⟩

/-- **Nothing but the target is traced.**  From when `main` attaches the programs,
whatever the threads and signals do, `program_map` holds the identifier that
`get_PID_to_trace` has given.  In all runs of the programs, the events, the signals
and the samples are of tasks that match it. -/
theorem only_target_traced (s : EptracerState) (h : Reachable eptracer s)
    (before after : List EptracerEntry) (x : EptracerEntry) (skel : Option EptracerBpf)
    (hlog : s.log = before ++ x :: after) (hattach : x.event.call = .attachSkeleton skel) :
    ∃ identifier, Identified (own before .main false) identifier ∧
      ∀ map l, before <+: l → l <+: s.log →
        Traces (programMapAfter map (l.map Entry.event)) identifier := by
  obtain ⟨identifier, hidentified, hfixed⟩ := programMap_fixed (h.kept lawful_target) hlog hattach
  refine ⟨identifier, hidentified, fun map l hl hprefix => ?_⟩
  rw [hfixed map l hl hprefix]
  exact traces_strncpy hidentified.1

/-- Process 7 is traced. -/
theorem only_target_traced_seven :
    ∃ identifier, Identified (own (tracingState.log.take 22) .main false) identifier ∧
      ∀ map l, tracingState.log.take 22 <+: l → l <+: tracingState.log →
        Traces (programMapAfter map (l.map Entry.event)) identifier :=
  only_target_traced tracingState (State.run_reachable (answers_can _) _)
    (tracingState.log.take 22) (tracingState.log.drop 23)
    ⟨.main, false, ⟨.attachSkeleton (some ⟨true⟩), (0 : Int32)⟩⟩ (some ⟨true⟩) rfl rfl

end EPtracer
