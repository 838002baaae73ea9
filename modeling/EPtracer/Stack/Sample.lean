import EPtracer.Lib.Printf
import EPtracer.Target.Selection

/-!
# Stack samples

`getStacktrace` is the BPF program on a perf event.  It fills the one record its
CPU has in `stackdata_map`, and passes the record on.  The record still holds
the previous sample, so what `bpf_get_stack` does not write is stale.
`stackEventHandler` is the callback that receives the record.  It calls
`show_stack_trace` for each of the two stacks that has a size.

A size is the result of `bpf_get_stack`, which is negative when it fails.  The
user stack keeps it in an `int`.  The kernel stack keeps it in an
`unsigned long`, where a negative result is a huge size.  No test on either
side notices it, and the handler shows 2^61 entries of an array of 100.
`samples_reported_iff` says that this is the only way a report goes wrong.
-/

namespace EPtracer

open CText

/-- `MAX_STACK_RAWTP`. -/
def maxStackRawtp : Nat := 100

/-! ## The record -/

/-- A `__u64[MAX_STACK_RAWTP]`. -/
structure Stack where
  entries : List UInt64
  size : entries.length = maxStackRawtp

/-- Write to the front of the array, and leave the rest as it was. -/
def Stack.write (stack : Stack) (frames : List UInt64) (h : frames.length ≤ maxStackRawtp) :
    Stack :=
  ⟨frames ++ stack.entries.drop frames.length, by
    simp only [List.length_append, List.length_drop, stack.size]
    omega⟩

/-- `struct stack_trace_t`. -/
structure StackTrace where
  pid : Int32
  kernStackSize : UInt64
  userStackSize : Int32
  kernStack : Stack
  userStack : Stack

/-- What happens in one call of `bpf_get_stack`. -/
inductive GetStack where
  /-- It fails, and leaves the array in some state. -/
  | failed (errno : Nat) (pos : 0 < errno) (le : errno ≤ 4095) (left : Stack)
  /-- It finds frames, which fit the array. -/
  | found (frames : List UInt64) (fits : frames.length ≤ maxStackRawtp)

/-- `bpf_get_stack(ctx, buf, MAX_STACK_RAWTP * sizeof(__u64), flags)`: its result,
and the array after it. -/
def bpfGetStack : GetStack → Stack → Int64 × Stack
  | .failed errno _ _ left, _ => (-Int64.ofNat errno, left)
  | .found frames fits, buf => (Int64.ofNat (8 * frames.length), buf.write frames fits)

/-! ## The program -/

/-- One hit of the perf event. -/
structure PerfSample where
  task : Task
  kern : GetStack
  user : GetStack

/-- What a run of the program leaves. -/
structure Sampled where
  data : StackTrace
  /-- The lines for the kernel's trace. -/
  printed : List String
  /-- The flags and the record given to `bpf_perf_event_output`, if it was
  called. -/
  output : Option (UInt64 × StackTrace)

/-- `get_stacktrace(ctx)`, with `entry` in `program_map` and `data` in the record
of the CPU. -/
def getStacktrace (entry : ProgramName) (ctx : PerfSample) (data : StackTrace) : Sampled :=
  let pid := targetPid entry ctx.task
  if pid = 0 then ⟨data, [], none⟩
  else
    let (kernRet, kernStack) := bpfGetStack ctx.kern data.kernStack
    let kernStackSize := kernRet.toUInt64
    let kernPrinted :=
      if kernStackSize < 0 then ["bpf_get_stack: failed to get kernel stack"] else []
    let (userRet, userStack) := bpfGetStack ctx.user data.userStack
    let userStackSize := userRet.toInt32
    let userPrinted :=
      if userStackSize < 0 then ["bpf_get_stack: failed to get user stack"] else []
    let data := ⟨pid.toInt32, kernStackSize, userStackSize, kernStack, userStack⟩
    ⟨data, kernPrinted ++ userPrinted, some (0, data)⟩

/-- The outputs of the program over the samples of one CPU. -/
def outputs (entry : ProgramName) : StackTrace → List PerfSample → List (Option StackTrace)
  | _, [] => []
  | data, ctx :: samples =>
      let sampled := getStacktrace entry ctx data
      sampled.output.map Prod.snd :: outputs entry sampled.data samples

/-! ## The handler -/

/-- The calls of `stack_event_handler`. -/
inductive HandlerCall where
  | printf (fmt : String) (args : List CArg)
  | showStackTrace (stack : Stack) (stackSz : UInt64) (pid : Int32)

/-- `stack_event_handler(ctx, cpu, stack_data, stack_size)`, at the time `ts`. -/
def stackEventHandler (ts : Bytes) (cpu : Int32) (e : StackTrace) : List HandlerCall :=
  let kern : List HandlerCall :=
    if 0 < e.kernStackSize then
      [.printf "Kernel stack size -> %ld\n" [.ulong e.kernStackSize],
        .printf "Kernel:\n" [],
        .showStackTrace e.kernStack (e.kernStackSize / 8) 0]
    else [.printf "No Kernel Stack\n" []]
  let user : List HandlerCall :=
    if 0 < e.userStackSize then
      [.printf "User stack size -> %d\n" [.int e.userStackSize],
        .printf "Userspace:\n" [],
        .showStackTrace e.userStack (e.userStackSize.toInt64.toUInt64 / 8) e.pid]
    else [.printf "No Userspace Stack\n" []]
  [.printf "--------------------------------------------------------------\n" [],
    .printf "Time -> %-8s\n" [.str ts],
    .printf "PID -> %d\n" [.int e.pid],
    .printf "CPU -> %d\n" [.int cpu]] ++ kern ++ user ++
  [.printf "--------------------------------------------------------------\n" [],
    .printf "\n" []]

/-- The entries `show_stack_trace` is given, and the process they are looked up
in.  It is given none that exist when the size goes past the array. -/
def HandlerCall.shown : HandlerCall → List (Option (List UInt64) × Int32)
  | .printf _ _ => []
  | .showStackTrace stack stackSz pid =>
      if stackSz.toNat ≤ maxStackRawtp then [(some (stack.entries.take stackSz.toNat), pid)]
      else [(none, pid)]

/-! ## What should be shown -/

/-- The call has failed, with a negative result. -/
def GetStack.Failed : GetStack → Prop
  | .failed _ _ _ _ => True
  | .found _ _ => False

/-- The frames a call found are shown, if there are any. -/
def GetStack.report (pid : Int32) : GetStack → List (Option (List UInt64) × Int32)
  | .failed _ _ _ _ => []
  | .found [] _ => []
  | .found (frame :: frames) _ => [(some (frame :: frames), pid)]

/-- The handler shows the frames of this sample and nothing else. -/
def ReportedExactly (entry : ProgramName) (ctx : PerfSample) (e : StackTrace) : Prop :=
  ∀ ts cpu, (stackEventHandler ts cpu e).flatMap HandlerCall.shown =
    ctx.kern.report 0 ++ ctx.user.report (targetPid entry ctx.task).toInt32

/-! ## Sizes -/

theorem toNat_kernSize {n : Nat} (h : n ≤ maxStackRawtp) :
    (Int64.ofNat (8 * n)).toUInt64.toNat = 8 * n := by
  simp only [maxStackRawtp] at h
  rw [Int64.toUInt64_ofNat', UInt64.toNat_ofNat', Nat.mod_eq_of_lt (by omega)]

theorem toInt_userSize {n : Nat} (h : n ≤ maxStackRawtp) :
    (Int64.ofNat (8 * n)).toInt32.toInt = 8 * n := by
  simp only [maxStackRawtp] at h
  rw [Int64.toInt_toInt32, Int64.toInt_ofNat_of_lt (by omega),
    Int.bmod_eq_of_le (by omega) (by omega)]
  norm_cast

theorem toNat_kernError {errno : Nat} (pos : 0 < errno) (le : errno ≤ 4095) :
    (-Int64.ofNat errno).toUInt64.toNat = 2 ^ 64 - errno := by
  rw [Int64.toUInt64_neg, Int64.toUInt64_ofNat', UInt64.toNat_neg, UInt64.toNat_ofNat']
  simp only [UInt64.size]
  omega

theorem toInt_userError {errno : Nat} (le : errno ≤ 4095) :
    (-Int64.ofNat errno).toInt32.toInt = -errno := by
  have hneg : (-(errno : Int)).bmod (2 ^ 64) = -errno := Int.bmod_eq_of_le (by omega) (by omega)
  rw [Int64.toInt_toInt32, Int64.toInt_neg, Int64.toInt_ofNat_of_lt (by omega), hneg,
    Int.bmod_eq_of_le (by omega) (by omega)]

/-! ## What the handler shows -/

/-- What is shown of a stack: nothing, unless its size is positive. -/
def shownIf (c : Prop) [Decidable c] (stack : Stack) (stackSz : UInt64) (pid : Int32) :
    List (Option (List UInt64) × Int32) :=
  if c then (HandlerCall.showStackTrace stack stackSz pid).shown else []

theorem stackEventHandler_shown (ts : Bytes) (cpu : Int32) (e : StackTrace) :
    (stackEventHandler ts cpu e).flatMap HandlerCall.shown =
      shownIf (0 < e.kernStackSize) e.kernStack (e.kernStackSize / 8) 0 ++
      shownIf (0 < e.userStackSize) e.userStack (e.userStackSize.toInt64.toUInt64 / 8) e.pid := by
  simp only [stackEventHandler, shownIf]
  split <;> split <;> simp [HandlerCall.shown]

/-- Frames that were found are shown, whatever the array held. -/
theorem shownIf_found {c : Prop} [Decidable c] {buf : Stack} {frames : List UInt64}
    (fits : frames.length ≤ maxStackRawtp) {stackSz : UInt64} (hpos : c ↔ 0 < frames.length)
    (hsz : stackSz.toNat = frames.length) (pid : Int32) :
    shownIf c (buf.write frames fits) stackSz pid = (GetStack.found frames fits).report pid := by
  cases frames with
  | nil =>
      rw [shownIf, if_neg (by simp [hpos])]
      rfl
  | cons frame frames =>
      rw [shownIf, if_pos (hpos.mpr (by simp)), HandlerCall.shown, hsz, if_pos fits]
      simp [Stack.write, GetStack.report]

/-- A kernel stack is shown as it was found, and shown beyond its end when the
call failed. -/
theorem shownIf_kern (r : GetStack) (buf : Stack) :
    shownIf (0 < (bpfGetStack r buf).1.toUInt64) (bpfGetStack r buf).2
      ((bpfGetStack r buf).1.toUInt64 / 8) 0 =
      match r with
      | .failed _ _ _ _ => [(none, 0)]
      | .found frames fits => (GetStack.found frames fits).report 0 := by
  cases r with
  | failed errno pos le left =>
      have herror := toNat_kernError pos le
      have hpos : 0 < (-Int64.ofNat errno).toUInt64 := by
        rw [UInt64.lt_iff_toNat_lt, herror, UInt64.toNat_zero]
        omega
      have hfar : ¬ ((-Int64.ofNat errno).toUInt64 / 8).toNat ≤ maxStackRawtp := by
        rw [UInt64.toNat_div, herror, show (8 : UInt64).toNat = 8 from rfl, maxStackRawtp]
        omega
      simp only [bpfGetStack, shownIf, hpos, HandlerCall.shown, hfar, if_true, if_false]
  | found frames fits =>
      have hsize := toNat_kernSize fits
      refine shownIf_found fits ?_ ?_ 0
      · rw [bpfGetStack, UInt64.lt_iff_toNat_lt, hsize, UInt64.toNat_zero]
        omega
      · rw [bpfGetStack, UInt64.toNat_div, hsize, show (8 : UInt64).toNat = 8 from rfl]
        omega

/-- A user stack is shown as it was found, and not at all when the call
failed. -/
theorem shownIf_user (r : GetStack) (buf : Stack) (pid : Int32) :
    shownIf (0 < (bpfGetStack r buf).1.toInt32) (bpfGetStack r buf).2
      ((bpfGetStack r buf).1.toInt32.toInt64.toUInt64 / 8) pid = r.report pid := by
  cases r with
  | failed errno pos le left =>
      have hneg : ¬ 0 < (-Int64.ofNat errno).toInt32 := by
        rw [Int32.lt_iff_toInt_lt, toInt_userError le, Int32.toInt_zero]
        omega
      exact if_neg hneg
  | found frames fits =>
      have hsize := toInt_userSize fits
      refine shownIf_found fits ?_ ?_ pid
      · rw [bpfGetStack, Int32.lt_iff_toInt_lt, hsize, Int32.toInt_zero]
        omega
      · have hnat : (Int64.ofNat (8 * frames.length)).toInt32.toInt64 =
            Int64.ofNat (8 * frames.length) := by
          rw [← Int64.toInt_inj, Int32.toInt_toInt64, hsize, Int64.toInt_ofNat_of_lt]
          · norm_cast
          · simp only [maxStackRawtp] at fits
            omega
        rw [bpfGetStack, hnat, UInt64.toNat_div, toNat_kernSize fits,
          show (8 : UInt64).toNat = 8 from rfl]
        omega

/-! ## Reports -/

/-- What the program passes on for a selected task depends on the record of the
CPU only where the calls of this sample wrote nothing. -/
theorem getStacktrace_output {entry : ProgramName} {ctx : PerfSample}
    (h : targetPid entry ctx.task ≠ 0) (data : StackTrace) :
    (getStacktrace entry ctx data).output = some (0,
      ⟨(targetPid entry ctx.task).toInt32, (bpfGetStack ctx.kern data.kernStack).1.toUInt64,
        (bpfGetStack ctx.user data.userStack).1.toInt32,
        (bpfGetStack ctx.kern data.kernStack).2, (bpfGetStack ctx.user data.userStack).2⟩) := by
  simp only [getStacktrace, if_neg h]

/-- A sample is reported exactly unless the call for its kernel stack failed. -/
theorem reportedExactly_iff {entry : ProgramName} {ctx : PerfSample} {data e : StackTrace}
    {flags : UInt64} (h : targetPid entry ctx.task ≠ 0)
    (ho : (getStacktrace entry ctx data).output = some (flags, e)) :
    ReportedExactly entry ctx e ↔ ¬ ctx.kern.Failed := by
  rw [getStacktrace_output h, Option.some.injEq, Prod.mk.injEq] at ho
  obtain ⟨-, rfl⟩ := ho
  simp only [ReportedExactly, stackEventHandler_shown, shownIf_kern, shownIf_user,
    List.append_cancel_right_eq, forall_const]
  cases ctx.kern with
  | failed errno pos le left => simp [GetStack.report, GetStack.Failed]
  | found frames fits => simp [GetStack.Failed]

/-- Over every sequence of samples on a CPU, whatever its record held at first,
a sample of a selected task is reported exactly if and only if the call for its
kernel stack did not fail. -/
theorem samples_reported_iff (entry : ProgramName) (data : StackTrace)
    (samples : List PerfSample) (i : Nat) (ctx : PerfSample) (hctx : samples[i]? = some ctx)
    (h : targetPid entry ctx.task ≠ 0) :
    ∃ e, (outputs entry data samples)[i]? = some (some e) ∧
      (ReportedExactly entry ctx e ↔ ¬ ctx.kern.Failed) := by
  induction samples generalizing data i with
  | nil => simp at hctx
  | cons first samples ih =>
      cases i with
      | zero =>
          obtain rfl : first = ctx := by simpa using hctx
          have ho := getStacktrace_output h data
          refine ⟨_, ?_, reportedExactly_iff h ho⟩
          simp only [outputs, ho]
          rfl
      | succ i =>
          have hrest : samples[i]? = some ctx := by simpa using hctx
          simp only [outputs, List.getElem?_cons_succ]
          exact ih (getStacktrace entry first data).data i hrest

/-- A stack of zeros. -/
def blankStack : Stack := ⟨List.replicate maxStackRawtp 0, by simp⟩

/-- A record of zeros. -/
def blankTrace : StackTrace := ⟨0, 0, 0, blankStack, blankStack⟩

/-- The shell is sampled in userspace, two frames deep. -/
def shellSample (kern : GetStack) : PerfSample where
  task := shell
  kern := kern
  user := .found [0x401000, 0x401200] (by decide)

theorem samples_reported_iff_user :
    ∃ e, (outputs shellName blankTrace [shellSample (.found [] (by decide))])[0]? =
        some (some e) ∧
      (ReportedExactly shellName (shellSample (.found [] (by decide))) e ↔
        ¬ (shellSample (.found [] (by decide))).kern.Failed) :=
  samples_reported_iff _ blankTrace [shellSample (.found [] (by decide))] 0 _ rfl (by decide)

/-- The call for the kernel stack fails with EFAULT, and its sample is not
reported exactly. -/
theorem failed_kern_reported :
    ¬ ∀ (entry : ProgramName) (data : StackTrace) (samples : List PerfSample) (i : Nat)
      (ctx : PerfSample), samples[i]? = some ctx → targetPid entry ctx.task ≠ 0 →
      ∃ e, (outputs entry data samples)[i]? = some (some e) ∧ ReportedExactly entry ctx e := by
  intro h
  have htarget : targetPid shellName
      (shellSample (.failed 14 (by decide) (by decide) blankStack)).task ≠ 0 := by decide
  obtain ⟨e, he, hexact⟩ := h _ blankTrace
    [shellSample (.failed 14 (by decide) (by decide) blankStack)] 0 _ rfl htarget
  have ho := getStacktrace_output htarget blankTrace
  simp only [outputs, ho, List.getElem?_cons_zero, Option.map_some, Option.some.injEq] at he
  subst he
  exact (reportedExactly_iff htarget ho).mp hexact trivial

end EPtracer
