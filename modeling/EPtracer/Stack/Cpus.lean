import EPtracer.Lib.Keyed
import EPtracer.Stack.Delivery

/-!
# Samples of all CPUs

`get_stacktrace` runs on every CPU it is attached to.  `stackdata_map` has a
record for each CPU, and the perf buffers of `perfmap` are one for each CPU as
well.  So the programs share nothing but the handler at the end.

`received` is what that handler gets, over any interleaving of samples on the
CPUs.  `stack_pipeline` follows the samples to it.  Those of CPU 0 arrive in
their order, whatever the other CPUs do, and are shown as they were taken unless
the kernel's stack could not be.
-/

namespace EPtracer

open Keyed

/-- A hit of the perf event on a CPU. -/
structure CpuSample where
  cpu : Nat
  sample : PerfSample
  /-- The perf buffer of the CPU takes a record. -/
  room : Bool

/-- A run of the program, on what its CPU has in `stackdata_map`. -/
def sampleStep (entry : ProgramName) (data : StackTrace) (s : CpuSample) :
    StackTrace × Option (UInt64 × StackTrace) × Bool :=
  let sampled := getStacktrace entry s.sample data
  (sampled.data, sampled.output, s.room)

/-- The record that arrives, with the CPU of its buffer. -/
def arrives (args : StackTracerArgs) :
    Nat × Option (UInt64 × StackTrace) × Bool → Option (Nat × StackTrace)
  | (cpu, some (flags, e), room) =>
      if bpfPerfEventOutput (perfmap args) flags cpu = 0 ∧ room = true then some (cpu, e) else none
  | (_, none, _) => none

/-- What `stack_event_handler` gets over the samples of a run, where `slots` is
`stackdata_map` at its start. -/
def received (entry : ProgramName) (args : StackTracerArgs) (slots : Nat → StackTrace)
    (samples : List CpuSample) : List (Nat × StackTrace) :=
  (run (sampleStep entry) slots (samples.map fun s => (s.cpu, s))).filterMap (arrives args)

/-- The sample arrives: it is of the target, on CPU 0, and its buffer has room. -/
def CpuSample.Arrives (entry : ProgramName) (s : CpuSample) : Prop :=
  s.cpu = 0 ∧ s.room = true ∧ targetPid entry s.sample.task ≠ 0

instance (entry : ProgramName) (s : CpuSample) : Decidable (s.Arrives entry) :=
  inferInstanceAs (Decidable (_ ∧ _))

/-! ## One sample -/

/-- No output but that of CPU 0 gets through. -/
theorem arrives_eq_none (args : StackTracerArgs) {entry : ProgramName} {cpu : Nat} (h : cpu ≠ 0)
    (data : StackTrace) (s : CpuSample) :
    arrives args (cpu, (sampleStep entry data s).2) = none := by
  rcases Decidable.em (targetPid entry s.sample.task = 0) with hzero | htarget
  · simp only [sampleStep, getStacktrace, hzero, if_true, arrives]
  · have hindex : perfIndex 0 cpu = 0 := if_neg (by decide)
    have herror : ¬ bpfPerfEventOutput (perfmap args) 0 cpu = 0 := by
      rw [output_eq_zero_iff args 0 cpu (by decide), hindex]
      exact fun h' => h h'.1.symm
    simp only [sampleStep, getStacktrace_output htarget, arrives, herror, false_and, if_false]

/-- On CPU 0 an output gets through if there is room for it. -/
theorem arrives_first_cpu {args : StackTracerArgs} (honline : args.Online 0)
    (hcpus : 0 < args.numCpus) (entry : ProgramName) (data : StackTrace) (s : CpuSample) :
    arrives args (0, (sampleStep entry data s).2) =
      if s.room = true then (getStacktrace entry s.sample data).output.map fun o => (0, o.2)
      else none := by
  rcases Decidable.em (targetPid entry s.sample.task = 0) with hzero | htarget
  · simp only [sampleStep, getStacktrace, hzero, if_true, arrives, Option.map_none, ite_self]
  · have hsent : bpfPerfEventOutput (perfmap args) 0 0 = 0 := by
      rw [output_eq_zero_iff args 0 0 (by decide)]
      exact ⟨if_neg (by decide), by decide, hcpus, honline⟩
    simp only [sampleStep, getStacktrace_output htarget, arrives, hsent, true_and, Option.map_some]

/-! ## All samples -/

/-- The samples of a CPU, in their order. -/
def onCpu (cpu : Nat) (samples : List CpuSample) : List CpuSample :=
  samples.filter fun s => s.cpu = cpu

theorem under_onCpu (cpu : Nat) (samples : List CpuSample) :
    under cpu (samples.map fun s => (s.cpu, s)) = onCpu cpu samples := by
  rw [under, List.filterMap_map, onCpu, ← List.filterMap_eq_filter]
  refine List.filterMap_congr fun s _ => ?_
  simp only [Function.comp_apply, Option.guard, decide_eq_true_eq]

/-- The handler gets what CPU 0 alone would give it. -/
theorem received_eq (entry : ProgramName) (args : StackTracerArgs) (slots : Nat → StackTrace)
    (samples : List CpuSample) :
    received entry args slots samples =
      (Keyed.outputs (sampleStep entry) (slots 0) (onCpu 0 samples)).filterMap fun y =>
        arrives args (0, y) := by
  rw [received, filterMap_run (k := 0) fun cpu data s h => arrives_eq_none args h data s,
    under_onCpu]

/-- Sample by sample, what arrives is what was taken. -/
theorem forall₂_arrives {args : StackTracerArgs} (honline : args.Online 0)
    (hcpus : 0 < args.numCpus) (entry : ProgramName) (data : StackTrace)
    (samples : List CpuSample) :
    List.Forall₂ (fun s r => r.1 = 0 ∧ r.2.pid = (targetPid entry s.sample.task).toInt32 ∧
        (ReportedExactly entry s.sample r.2 ↔ ¬ s.sample.kern.Failed))
      (samples.filter fun s => s.room = true ∧ targetPid entry s.sample.task ≠ 0)
      ((Keyed.outputs (sampleStep entry) data samples).filterMap fun y => arrives args (0, y)) := by
  induction samples generalizing data with
  | nil => exact .nil
  | cons s samples ih =>
      rw [Keyed.outputs, List.filterMap_cons, arrives_first_cpu honline hcpus]
      rcases Decidable.em (s.room = true ∧ targetPid entry s.sample.task ≠ 0) with hboth | hnot
      · have ho := getStacktrace_output hboth.2 data
        rw [List.filter_cons_of_pos (by simpa using hboth), if_pos hboth.1, ho, Option.map_some]
        exact .cons ⟨rfl, rfl, reportedExactly_iff hboth.2 ho⟩ (ih _)
      · have hnone : (if s.room = true then
            (getStacktrace entry s.sample data).output.map fun o => ((0 : Nat), o.2) else none) =
            none := by
          split
          next hroom =>
            have hzero : targetPid entry s.sample.task = 0 := by
              by_contra htarget
              exact hnot ⟨hroom, htarget⟩
            simp only [getStacktrace, hzero, if_true, Option.map_none]
          next => rfl
        rw [List.filter_cons_of_neg (by simpa using hnot), hnone]
        exact ih _

/-- **From the samples to the handler.**  Whatever the interleaving of the CPUs,
the handler gets the samples of the target on CPU 0, in their order and once
each.  It gets none of another CPU, and what the others do has no effect on what
it gets.  A sample is reported exactly unless the call for its kernel stack
failed. -/
theorem stack_pipeline (calls : SetUpCalls) (args : StackTracerArgs) (st : SetUp)
    (entry : ProgramName) (slots slots' : Nat → StackTrace) (samples : List CpuSample)
    (hpoll : stackTracer calls args = .ok st) (hattached : st.Attached 0)
    (hslot : slots' 0 = slots 0) :
    List.Forall₂ (fun s r => r.1 = 0 ∧ r.2.pid = (targetPid entry s.sample.task).toInt32 ∧
        (ReportedExactly entry s.sample r.2 ↔ ¬ s.sample.kern.Failed))
      (samples.filter fun s => s.Arrives entry) (received entry args slots samples) ∧
    received entry args slots' (onCpu 0 samples) = received entry args slots samples := by
  obtain ⟨hcpus, honline⟩ := (stackTracer_attached_iff hpoll 0).mp hattached
  constructor
  · have hfilter : (samples.filter fun s => s.Arrives entry) =
        (onCpu 0 samples).filter fun s => s.room = true ∧ targetPid entry s.sample.task ≠ 0 := by
      rw [onCpu, List.filter_filter]
      refine List.filter_congr fun s _ => ?_
      rw [Bool.and_comm, ← Bool.decide_and]
      rfl
    rw [received_eq, hfilter]
    exact forall₂_arrives honline hcpus entry (slots 0) (onCpu 0 samples)
  · have htwice : onCpu 0 (onCpu 0 samples) = onCpu 0 samples := by
      rw [onCpu, onCpu, List.filter_filter]
      simp only [Bool.and_self]
    rw [received_eq, received_eq, hslot, htwice]

/-- A sample of the shell, which has no kernel stack. -/
def shellSampled : PerfSample := shellSample (.found [] (by decide))

/-- The shell is sampled on both CPUs. -/
def twoSamples : List CpuSample := [⟨1, shellSampled, true⟩, ⟨0, shellSampled, true⟩]

theorem stack_pipeline_shell :
    ∃ e, received shellName twoCpus (fun _ => blankTrace) twoSamples = [(0, e)] ∧ e.pid = 7 ∧
      ReportedExactly shellName shellSampled e ∧
      received shellName twoCpus (fun _ => blankTrace) (onCpu 0 twoSamples) = [(0, e)] := by
  obtain ⟨hreceived, halone⟩ := stack_pipeline callsSucceed twoCpus twoCpusPolling shellName
    (fun _ => blankTrace) (fun _ => blankTrace) twoSamples rfl rfl rfl
  have harrive : (twoSamples.filter fun s => s.Arrives shellName) =
      [⟨0, shellSampled, true⟩] := rfl
  rw [harrive] at hreceived
  rw [halone]
  generalize received shellName twoCpus (fun _ => blankTrace) twoSamples = l at hreceived
  rcases hreceived with - | ⟨⟨hcpu, hpid, hexact⟩, hrest⟩
  next r rest =>
    cases hrest
    obtain ⟨cpu, e⟩ := r
    obtain rfl : cpu = 0 := hcpu
    have hfound : ¬ shellSampled.kern.Failed := by simp [shellSampled, shellSample, GetStack.Failed]
    exact ⟨e, rfl, hpid, hexact.mpr hfound, rfl⟩

end EPtracer
