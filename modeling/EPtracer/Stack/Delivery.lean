import EPtracer.Stack.Sample

/-!
# The samples that arrive

`stackTracer` opens a perf event on each online CPU and attaches
`getStacktrace` to it.  Then it has libbpf open the buffers of `perfmap`, one
for each CPU the map has room for, and polls them.

The program gives `bpf_perf_event_output` the flags 0.  That is an index: entry
0 of `perfmap`, whose buffer was opened on CPU 0.  The kernel refuses an output
to the buffer of another CPU, and the program does not look at the result.
`BPF_F_CURRENT_CPU` would select the buffer of the running CPU, and then the two
entries of the map would be the limit.  `output_eq_zero_iff` covers both.
-/

namespace EPtracer

/-! ## Setting up -/

/-- `struct stack_tracer_args`.  The mask is the one `parse_cpu_mask_file` made. -/
structure StackTracerArgs where
  onlineMask : List Bool
  numCpus : Nat
  numOnlineCpus : Nat
  /-- The mask has as many entries. -/
  size : onlineMask.length = numOnlineCpus

/-- What the calls of `stack_tracer` return. -/
structure SetUpCalls where
  perfEventOpen : Nat → Int64
  /-- `bpf_program__attach_perf_event` on a CPU gives a link. -/
  attachPerfEvent : Nat → Bool
  symbolizerNew : Bool
  perfBufferNew : Bool

/-- What the kernel holds for `stack_tracer`: the CPUs with an open perf event, and
the CPUs with a link. -/
structure Held where
  /-- The CPUs whose event is open, as they were opened. -/
  events : List Nat
  /-- The CPUs whose event has a link. -/
  links : List Nat
deriving DecidableEq

/-- Nothing is held. -/
def Held.empty : Held := ⟨[], []⟩

/-- The arrays of `stack_tracer`, and what its calls have done. -/
structure SetUp where
  perfds : List Int32
  /-- The entries of `links` that are not null. -/
  links : List Bool
  /-- The indices at which `online_mask` was read. -/
  maskReads : List Nat
  /-- What has been made and not released. -/
  held : Held

/-- The state before the loop over the CPUs. -/
def SetUp.init (numCpus : Nat) : SetUp :=
  ⟨List.replicate numCpus (-1), List.replicate numCpus false, [], .empty⟩

/-- The state after the mask was read for a CPU. -/
def SetUp.readMask (st : SetUp) (cpu : Nat) : SetUp :=
  { st with maskReads := st.maskReads ++ [cpu] }

/-- `perfds[cpu] = perfd`, for the event that has been opened on the CPU. -/
def SetUp.openEvent (st : SetUp) (cpu : Nat) (perfd : Int32) : SetUp :=
  { st with
    perfds := st.perfds.set cpu perfd
    held := { st.held with events := st.held.events ++ [cpu] } }

/-- `links[cpu] = link`, where a link has been made if it is not null. -/
def SetUp.setLink (st : SetUp) (cpu : Nat) (link : Bool) : SetUp :=
  { st with
    links := st.links.set cpu link
    held := if link then { st.held with links := st.held.links ++ [cpu] } else st.held }

/-- The body of the loop over the CPUs.  It is an error where `stack_tracer`
returns. -/
def setUpCpu (calls : SetUpCalls) (args : StackTracerArgs) (cpu : Nat) (st : SetUp) :
    Except SetUp SetUp :=
  let perfd := calls.perfEventOpen cpu
  let link := calls.attachPerfEvent cpu
  if args.numOnlineCpus ≤ cpu then .ok st
  else if args.onlineMask[cpu]? ≠ some true then .ok (st.readMask cpu)
  else if perfd < 0 then .error (st.readMask cpu)
  else if !link then .error (((st.readMask cpu).openEvent cpu perfd.toInt32).setLink cpu link)
  else .ok (((st.readMask cpu).openEvent cpu perfd.toInt32).setLink cpu link)

/-- The loop over the CPUs.  It is an error where `stack_tracer` returns. -/
def setUpCpus (calls : SetUpCalls) (args : StackTracerArgs) : List Nat → SetUp →
    Except SetUp SetUp
  | [], st => .ok st
  | cpu :: cpus, st =>
      match setUpCpu calls args cpu st with
      | .ok st => setUpCpus calls args cpus st
      | .error st => .error st

/-- `stack_tracer(args)`, up to the loop that polls.  It is an error where it
returns before. -/
def stackTracer (calls : SetUpCalls) (args : StackTracerArgs) : Except SetUp SetUp :=
  match setUpCpus calls args (List.range args.numCpus) (.init args.numCpus) with
  | .error st => .error st
  | .ok st =>
      if !calls.symbolizerNew then .error st
      else if !calls.perfBufferNew then .error st
      else .ok st

/-- The state in which `stack_tracer` polls or has returned. -/
def lastState : Except SetUp SetUp → SetUp
  | .ok st => st
  | .error st => st

/-- The program is attached to a CPU. -/
def SetUp.Attached (st : SetUp) (cpu : Nat) : Prop := st.links[cpu]? = some true

/-- A CPU is online, as far as the arguments tell. -/
def StackTracerArgs.Online (args : StackTracerArgs) (cpu : Nat) : Prop :=
  args.onlineMask[cpu]? = some true

/-! ## Passing a record on -/

/-- The number of entries of `perfmap`. -/
def perfmapEntries : Nat := 2

/-- `perfmap` after `perf_buffer__new`: the CPU on which the event of an entry was
opened.  There is one for each online CPU, at its own index, as far as the map
goes. -/
def perfmap (args : StackTracerArgs) (i : Nat) : Option Nat :=
  if i < perfmapEntries ∧ i < args.numCpus ∧ args.onlineMask[i]? = some true then some i
  else none

/-- `BPF_F_INDEX_MASK`, which is `BPF_F_CURRENT_CPU` as well. -/
def bpfFIndexMask : UInt64 := 0xffffffff

/-- The entry the flags select on a CPU. -/
def perfIndex (flags : UInt64) (cpu : Nat) : Nat :=
  if flags &&& bpfFIndexMask = bpfFIndexMask then cpu else (flags &&& bpfFIndexMask).toNat

/-- `bpf_perf_event_output(ctx, &perfmap, flags, …)` on a CPU whose buffer is not
full. -/
def bpfPerfEventOutput (map : Nat → Option Nat) (flags : UInt64) (cpu : Nat) : Int64 :=
  let index := perfIndex flags cpu
  if flags &&& ~~~bpfFIndexMask ≠ 0 then -22
  else if perfmapEntries ≤ index then -7
  else
    match map index with
    | none => -2
    | some opened => if opened ≠ cpu then -95 else 0

/-- The record of a sample on a CPU reaches the handler. -/
def Delivered (args : StackTracerArgs) (cpu : Nat) (sampled : Sampled) : Prop :=
  ∃ flags e, sampled.output = some (flags, e) ∧
    bpfPerfEventOutput (perfmap args) flags cpu = 0

/-! ## Which CPUs are set up -/

/-- Both calls for a CPU succeed. -/
def SetUpCalls.Works (calls : SetUpCalls) (cpu : Nat) : Prop :=
  ¬ calls.perfEventOpen cpu < 0 ∧ calls.attachPerfEvent cpu = true

/-- What a CPU that does not work leaves open. -/
def SetUpCalls.leftOpen (calls : SetUpCalls) (cpu : Nat) : List Nat :=
  if calls.perfEventOpen cpu < 0 then [] else [cpu]

theorem StackTracerArgs.Online.lt {args : StackTracerArgs} {cpu : Nat} (h : args.Online cpu) :
    cpu < args.numOnlineCpus := by
  rw [← args.size]
  exact (List.getElem?_eq_some_iff.mp h).1

theorem setUpCpu_of_online {calls : SetUpCalls} {args : StackTracerArgs} {cpu : Nat}
    (h : args.Online cpu) (st : SetUp) :
    setUpCpu calls args cpu st =
      if calls.perfEventOpen cpu < 0 then .error (st.readMask cpu)
      else if !calls.attachPerfEvent cpu then
        .error (((st.readMask cpu).openEvent cpu (calls.perfEventOpen cpu).toInt32).setLink cpu
          (calls.attachPerfEvent cpu))
      else .ok (((st.readMask cpu).openEvent cpu (calls.perfEventOpen cpu).toInt32).setLink cpu
        (calls.attachPerfEvent cpu)) := by
  have hmask : args.onlineMask[cpu]? = some true := h
  rw [setUpCpu, if_neg (Nat.not_le.mpr h.lt), if_neg (not_not_intro hmask)]

/-- The turn of a CPU: it is passed over, it is set up, or it ends the loop and what
it has made stays. -/
theorem setUpCpu_cases (calls : SetUpCalls) (args : StackTracerArgs) (cpu : Nat) (st : SetUp) :
    (¬ args.Online cpu ∧ ∃ st', setUpCpu calls args cpu st = .ok st' ∧ st'.links = st.links ∧
      st'.held = st.held) ∨
    (args.Online cpu ∧ calls.Works cpu ∧
      ∃ st', setUpCpu calls args cpu st = .ok st' ∧ st'.links = st.links.set cpu true ∧
        st'.held = ⟨st.held.events ++ [cpu], st.held.links ++ [cpu]⟩) ∨
    (args.Online cpu ∧ ¬ calls.Works cpu ∧ ∃ st', setUpCpu calls args cpu st = .error st' ∧
      st'.held = ⟨st.held.events ++ calls.leftOpen cpu, st.held.links⟩) := by
  rcases Classical.em (args.Online cpu) with honline | hoffline
  · rw [setUpCpu_of_online honline, SetUpCalls.leftOpen]
    refine .inr ?_
    split
    next hfails =>
      exact .inr ⟨honline, fun hworks => hworks.1 hfails, _, rfl, by simp [SetUp.readMask]⟩
    next hopens =>
      cases hlink : calls.attachPerfEvent cpu with
      | false =>
          refine .inr ⟨honline, fun hworks => ?_, _, rfl, rfl⟩
          exact Bool.false_ne_true (hlink.symm.trans hworks.2)
      | true => exact .inl ⟨honline, ⟨hopens, hlink⟩, _, rfl, rfl, rfl⟩
  · have hmask : args.onlineMask[cpu]? ≠ some true := hoffline
    refine .inl ⟨hoffline, ?_⟩
    simp only [setUpCpu]
    rw [if_pos hmask]
    split
    next => exact ⟨st, rfl, rfl, rfl⟩
    next => exact ⟨st.readMask cpu, rfl, rfl, rfl⟩

/-- A loop that ends well has attached the program to the online CPUs. -/
theorem setUpCpus_attached_iff {calls : SetUpCalls} {args : StackTracerArgs} {cpus : List Nat}
    {st st' : SetUp} (h : setUpCpus calls args cpus st = .ok st')
    (hroom : ∀ cpu ∈ cpus, cpu < st.links.length) (c : Nat) :
    st'.Attached c ↔ st.Attached c ∨ (c ∈ cpus ∧ args.Online c) := by
  induction cpus generalizing st with
  | nil =>
      cases h
      simp
  | cons cpu cpus ih =>
      rw [setUpCpus] at h
      obtain ⟨hcpu, hroom⟩ := List.forall_mem_cons.mp hroom
      rcases setUpCpu_cases calls args cpu st with
        ⟨hoffline, st₁, hcall, hlinks, -⟩ | ⟨honline, -, st₁, hcall, hlinks, -⟩ |
        ⟨-, -, st₁, hcall, -⟩
      · rw [hcall] at h
        rw [ih h (by rwa [hlinks]), SetUp.Attached, hlinks, ← SetUp.Attached]
        refine or_congr_right (and_congr_left fun hc => ?_)
        have hne : c ≠ cpu := fun heq => hoffline (heq ▸ hc)
        rw [List.mem_cons, or_iff_right hne]
      · rw [hcall] at h
        have hattached : st₁.Attached c ↔ c = cpu ∨ st.Attached c := by
          rw [SetUp.Attached, SetUp.Attached, hlinks, List.getElem?_set]
          split
          next heq => exact iff_of_true rfl (.inl heq.symm)
          next hne => exact (or_iff_right (Ne.symm hne)).symm
        rw [ih h (by rwa [hlinks, List.length_set]), hattached, List.mem_cons]
        constructor
        · rintro ((rfl | hst) | ⟨hmem, hc⟩)
          · exact .inr ⟨.inl rfl, honline⟩
          · exact .inl hst
          · exact .inr ⟨.inr hmem, hc⟩
        · rintro (hst | ⟨rfl | hmem, hc⟩)
          · exact .inl (.inr hst)
          · exact .inl (.inl rfl)
          · exact .inr ⟨hmem, hc⟩
      · rw [hcall] at h
        cases h

theorem stackTracer_eq_ok_iff {calls : SetUpCalls} {args : StackTracerArgs} {st : SetUp} :
    stackTracer calls args = .ok st ↔
      setUpCpus calls args (List.range args.numCpus) (.init args.numCpus) = .ok st ∧
        calls.symbolizerNew = true ∧ calls.perfBufferNew = true := by
  rw [stackTracer]
  cases setUpCpus calls args (List.range args.numCpus) (.init args.numCpus) with
  | error st' => simp
  | ok st' =>
      cases calls.symbolizerNew with
      | false => simp
      | true =>
          cases calls.perfBufferNew with
          | false => simp
          | true => simp

theorem stackTracer_attached_iff {calls : SetUpCalls} {args : StackTracerArgs} {st : SetUp}
    (h : stackTracer calls args = .ok st) (cpu : Nat) :
    st.Attached cpu ↔ cpu < args.numCpus ∧ args.Online cpu := by
  have hroom : ∀ cpu ∈ List.range args.numCpus, cpu < (SetUp.init args.numCpus).links.length := by
    intro cpu hcpu
    rw [SetUp.init, List.length_replicate]
    exact List.mem_range.mp hcpu
  rw [setUpCpus_attached_iff (stackTracer_eq_ok_iff.mp h).1 hroom, List.mem_range]
  refine or_iff_right fun hinit => ?_
  simp [SetUp.Attached, SetUp.init, List.getElem?_replicate] at hinit

/-! ## Which samples arrive -/

/-- An output succeeds if its index is the CPU it runs on, and that CPU has a
buffer. -/
theorem output_eq_zero_iff (args : StackTracerArgs) (flags : UInt64) (cpu : Nat)
    (hflags : flags &&& ~~~bpfFIndexMask = 0) :
    bpfPerfEventOutput (perfmap args) flags cpu = 0 ↔
      perfIndex flags cpu = cpu ∧ cpu < perfmapEntries ∧ cpu < args.numCpus ∧
        args.Online cpu := by
  simp only [bpfPerfEventOutput, hflags, ne_eq, not_true_eq_false, if_false]
  by_cases hindex : perfIndex flags cpu = cpu
  · rw [hindex]
    by_cases hentry : cpu < perfmapEntries
    · rw [if_neg (Nat.not_le.mpr hentry)]
      by_cases hopen : cpu < args.numCpus ∧ args.onlineMask[cpu]? = some true
      · simp [perfmap, hentry, hopen, StackTracerArgs.Online]
      · have hnone : perfmap args cpu = none := if_neg fun h => hopen h.2
        have herror : (-2 : Int64) ≠ 0 := by decide
        simp only [hnone, herror, false_iff, true_and, hentry]
        exact hopen
    · have herror : (-7 : Int64) ≠ 0 := by decide
      simp [hentry, Nat.le_of_not_lt hentry, herror]
  · simp only [hindex, false_and, iff_false]
    split
    next => decide
    next =>
      split
      next => decide
      next opened hopened =>
        have hopened : opened = perfIndex flags cpu := by
          unfold perfmap at hopened
          split at hopened
          next => exact (Option.some.inj hopened).symm
          next => cases hopened
        rw [if_pos (hopened ▸ hindex)]
        decide

/-- With `BPF_F_CURRENT_CPU` a sample would arrive from each CPU the map has room
for. -/
theorem output_currentCpu_iff (args : StackTracerArgs) (cpu : Nat) :
    bpfPerfEventOutput (perfmap args) bpfFIndexMask cpu = 0 ↔
      cpu < perfmapEntries ∧ cpu < args.numCpus ∧ args.Online cpu := by
  rw [output_eq_zero_iff args _ cpu (by decide)]
  simp [perfIndex]

/-- Of the CPUs the tracer is attached to, the samples of CPU 0 arrive and the
samples of the others do not. -/
theorem delivered_iff_first_cpu (calls : SetUpCalls) (args : StackTracerArgs) (st : SetUp)
    (cpu : Nat) (entry : ProgramName) (ctx : PerfSample) (data : StackTrace)
    (hpoll : stackTracer calls args = .ok st) (hcpu : st.Attached cpu)
    (htarget : targetPid entry ctx.task ≠ 0) :
    Delivered args cpu (getStacktrace entry ctx data) ↔ cpu = 0 := by
  obtain ⟨hlt, honline⟩ := (stackTracer_attached_iff hpoll cpu).mp hcpu
  have hzero : Delivered args cpu (getStacktrace entry ctx data) ↔
      bpfPerfEventOutput (perfmap args) 0 cpu = 0 := by
    rw [Delivered, getStacktrace_output htarget]
    constructor
    · rintro ⟨flags, e, h, hout⟩
      cases h
      exact hout
    · exact fun hout => ⟨_, _, rfl, hout⟩
  have hindex : perfIndex 0 cpu = 0 := if_neg (by decide)
  rw [hzero, output_eq_zero_iff args 0 cpu (by decide), hindex]
  constructor
  · exact fun h => h.1.symm
  · rintro rfl
    exact ⟨rfl, by decide, hlt, honline⟩

/-- Two CPUs, both online. -/
def twoCpus : StackTracerArgs := ⟨[true, true], 2, 2, rfl⟩

/-- Every call of the set-up succeeds. -/
def callsSucceed : SetUpCalls := ⟨fun cpu => Int64.ofNat (cpu + 3), fun _ => true, true, true⟩

/-- Both CPUs are set up, and the buffers are polled. -/
def twoCpusPolling : SetUp := ⟨[3, 4], [true, true], [0, 1], ⟨[0, 1], [0, 1]⟩⟩

theorem delivered_iff_first_cpu_zero :
    Delivered twoCpus 0
      (getStacktrace shellName (shellSample (.found [] (by decide))) blankTrace) :=
  (delivered_iff_first_cpu callsSucceed twoCpus twoCpusPolling 0 _ _ blankTrace rfl rfl
    (by decide)).mpr rfl

/-- The shell is sampled on CPU 1, and the sample is lost. -/
theorem second_cpu_lost :
    ¬ ∀ (calls : SetUpCalls) (args : StackTracerArgs) (st : SetUp) (cpu : Nat)
      (entry : ProgramName) (ctx : PerfSample) (data : StackTrace),
      stackTracer calls args = .ok st → st.Attached cpu → targetPid entry ctx.task ≠ 0 →
      Delivered args cpu (getStacktrace entry ctx data) := by
  intro h
  have htarget : targetPid shellName (shellSample (.found [] (by decide))).task ≠ 0 := by decide
  obtain ⟨flags, e, hout, hzero⟩ := h callsSucceed twoCpus twoCpusPolling 1 shellName
    (shellSample (.found [] (by decide))) blankTrace rfl rfl htarget
  rw [getStacktrace_output htarget] at hout
  cases hout
  exact absurd hzero (by decide)

end EPtracer
