import EPtracer.Lib.Words
import EPtracer.Spawn.Arguments
import EPtracer.Spawn.Selection

/-!
# The PID of the process to trace

`getPidToTrace` returns the PID it was given, or spawns the program it was given
and reads the PID of the child from a pipe.  The child writes the PID and then
becomes the program.

The parent asks only whether `read` failed.  A `read` that returns nothing, or
less than a PID, leaves bytes of the variable as they were, and nothing has been
stored there before.  So the string the parent returns is the PID of the child
in every case only if all of the PID has come (`handedOver_iff`).
-/

namespace EPtracer

open CText

/-! ## The code -/

/-- The options of `get_PID_to_trace`, where `none` is NULL. -/
structure Arguments where
  program : Option CStr
  processPid : Option CStr

/-- `s && strlen(s) != 0`. -/
def givenStr (s : Option CStr) : Option CStr := s.filter fun s => s.bytes.length ≠ 0

/-- What `read(fd, &pid_to_trace, 4)` gives. -/
inductive ReadResult where
  | error
  | bytes (b : Bytes) (fits : b.length ≤ 4)

/-- What the calls return. -/
structure SpawnCalls where
  pipe : Int32
  fork : Int32
  getpid : Int32
  write : Int64
  /-- It does not return when it succeeds. -/
  execvp : Option Int32
  read : ReadResult

/-- What comes of `get_PID_to_trace`. -/
inductive PidToTrace where
  | exit
  | null
  /-- A string is returned, with what is behind it. -/
  | str (region : Bytes)
  /-- The process has become the program, and has written some bytes before. -/
  | executed (written : Bytes) (execvpArgs : ExecvpArgs)

/-- The branch of the child. -/
def sendPid (calls : SpawnCalls) (execvpArgs : ExecvpArgs) : PidToTrace :=
  if calls.write < 0 then .exit
  else
    match calls.execvp with
    | none => .executed (store32 calls.getpid.toUInt32).bytes execvpArgs
    | some result => if result = -1 then .exit else .null

/-- The branch of the parent.  The second argument is what the variable holds
before it is assigned. -/
def receivePid (read : ReadResult) (pidToTrace : Buf 4) : PidToTrace :=
  match read with
  | .error => .exit
  | .bytes b _ =>
      match snprintf maxPidLen "%d" [.int (load32 (pidToTrace.write b)).toInt32] with
      | none => .exit
      | some pidToTraceStr => .str pidToTraceStr

/-- `get_PID_to_trace()`. -/
def getPidToTrace (args : Arguments) (calls : SpawnCalls) (pidToTrace : Buf 4) : PidToTrace :=
  match givenStr args.processPid, givenStr args.program with
  | some processPid, _ => .str (processPid.bytes ++ [0])
  | none, none => .null
  | none, some program =>
      if maxStrLen < program.bytes.length then .exit
      else
        let execvpArgs := createExecvpArgs program
        if calls.pipe = -1 then .exit
        else if calls.fork = -1 then .exit
        else if calls.fork = 0 then sendPid calls execvpArgs
        else receivePid calls.read pidToTrace

/-! ## The pipe -/

/-- How the `write` of the child ends.  The child can be killed before it. -/
inductive ChildWrite where
  | sent | failed | killed

/-- What the parent can read after that.  Only the bytes the child has written
are in the pipe.  A `read` returns no bytes only if there are none and the child
is gone. -/
def ReadResult.CanFollow (pid : Int32) : ChildWrite → ReadResult → Prop
  | _, .error => True
  | .sent, .bytes b _ => b ≠ [] ∧ b <+: (store32 pid.toUInt32).bytes
  | .failed, .bytes b _ => b = []
  | .killed, .bytes b _ => b = []

/-- All four bytes of a PID have been read. -/
def ReadResult.Complete : ReadResult → Prop
  | .error => False
  | .bytes b _ => b.length = 4

/-- The parent fails or returns the PID of the child. -/
def HandedOver (pid : Int32) : PidToTrace → Prop
  | .exit => True
  | .null => True
  | .str region => cString region = some (decimal pid.toInt.toNat)
  | .executed _ _ => False

/-- There is a program to spawn, a pipe and a child. -/
structure Spawned (args : Arguments) (calls : SpawnCalls) : Prop where
  program : ∃ program, givenStr args.program = some program ∧ program.bytes.length ≤ maxStrLen
  pipe : calls.pipe ≠ -1
  fork : 0 < calls.fork

/-! ## What is returned -/

theorem getPidToTrace_of_spawned {args : Arguments} {calls : SpawnCalls}
    (hpid : givenStr args.processPid = none) (h : Spawned args calls) (pidToTrace : Buf 4) :
    getPidToTrace args calls pidToTrace = receivePid calls.read pidToTrace := by
  obtain ⟨program, hprogram, hlen⟩ := h.program
  have hpos := Int32.lt_iff_toInt_lt.mp h.fork
  have hfork : calls.fork ≠ -1 := fun hf => by simp [hf] at hpos
  have hchild : calls.fork ≠ 0 := fun hf => by simp [hf] at hpos
  simp only [getPidToTrace, hpid, hprogram, if_neg (Nat.not_lt.mpr hlen), if_neg h.pipe,
    if_neg hfork, if_neg hchild]

/-- Without a child the parent fails. -/
theorem handedOver_of_not_spawned {args : Arguments} {calls : SpawnCalls}
    (hpid : givenStr args.processPid = none) (hparent : calls.fork = -1 ∨ 0 < calls.fork)
    (h : ¬ Spawned args calls) (pidToTrace : Buf 4) :
    HandedOver calls.fork (getPidToTrace args calls pidToTrace) := by
  rcases hprogram : givenStr args.program with _ | program
  · simp only [getPidToTrace, hpid, hprogram, HandedOver]
  · simp only [getPidToTrace, hpid, hprogram]
    split_ifs with hlen hpipe hfork hchild
    · trivial
    · trivial
    · trivial
    · simp [hchild] at hparent
    · exact absurd ⟨⟨program, hprogram, Nat.not_lt.mp hlen⟩, hpipe, hparent.resolve_left hfork⟩ h

/-- The parent returns the string of the number that is in the variable. -/
theorem receivePid_bytes (b : Bytes) (fits : b.length ≤ 4) (pidToTrace : Buf 4) :
    receivePid (.bytes b fits) pidToTrace =
      .str ((pidToTraceStr (load32 (pidToTrace.write b)).toInt32).bytes ++ [0]) := by
  rw [receivePid, snprintf_pidToTraceStr]

theorem handedOver_str_iff (pid v : Int32) :
    HandedOver pid (.str ((pidToTraceStr v).bytes ++ [0])) ↔
      (pidToTraceStr v).bytes = decimal pid.toInt.toNat := by
  rw [HandedOver, cString_append_zero, takeWhile_of_noNul (pidToTraceStr v).noNul, Option.some_inj]

/-- The string holds nine digits. -/
theorem pidToTraceStr_eq_decimal_iff {pid : Int32} (hpos : 0 < pid.toInt) :
    (pidToTraceStr pid).bytes = decimal pid.toInt.toNat ↔ pid.toInt < 10 ^ 9 := by
  have hq : pid.toInt = pid.toInt.toNat := (Int.toNat_of_nonneg (Int.le_of_lt hpos)).symm
  constructor
  · intro h
    have hlen : (decimal pid.toInt.toNat).length ≤ maxPidLen - 1 := by
      rw [← h]
      exact List.length_take_le ..
    have hlt := (length_decimal_le_iff (by decide)).mp hlen
    simp only [maxPidLen] at hlt
    omega
  · intro h
    exact pidToTraceStr_bytes hq (by omega)

/-- A negative number has no decimal string. -/
theorem pidToTraceStr_ne_decimal {v : Int32} (h : v.toInt < 0) (n : Nat) :
    (pidToTraceStr v).bytes ≠ decimal n := by
  obtain ⟨m, hm⟩ := Int.eq_negSucc_of_lt_zero h
  simp only [pidToTraceStr, hm, signed, maxPidLen]
  intro heq
  have hminus : (45 : UInt8) ∈ decimal n := by
    rw [← heq]
    exact List.mem_cons_self
  exact absurd (isDigit_of_mem_decimal hminus) (by decide)

/-! ## What the variable holds -/

/-- All the bytes of a PID are the PID. -/
theorem load32_write_complete {pid : Int32} {b : Bytes} (hlen : b.length = 4)
    (hb : b <+: (store32 pid.toUInt32).bytes) (pidToTrace : Buf 4) :
    (load32 (pidToTrace.write b)).toInt32 = pid := by
  have hall : b = (store32 pid.toUInt32).bytes := hb.eq_of_length (hlen.trans (store32 _).size.symm)
  have hwrite : pidToTrace.write b = store32 pid.toUInt32 := by
    rw [Buf.write_full _ hlen]
    exact Buf.ext hall
  rw [hwrite, load32_store32, Int32.toInt32_toUInt32]

/-- With less than a PID the number can be negative. -/
theorem exists_load32_write_neg {b : Bytes} (hlen : b.length < 4) :
    ∃ pidToTrace : Buf 4, (load32 (pidToTrace.write b)).toInt32.toInt < 0 := by
  let old : Buf 4 := ⟨[255, 255, 255, 255], rfl⟩
  refine ⟨old, ?_⟩
  -- the last byte, which has the sign, is not written
  have hlast : ptr (old.write b).bytes 3 = 255 := by
    rw [Buf.bytes_write _ (Nat.le_of_lt hlen)]
    match b with
    | [] | [_] | [_, _] | [_, _, _] => rfl
    | _ :: _ :: _ :: _ :: _ => simp at hlen; omega
  have hload := toNat_load32 (old.write b)
  rw [hlast] at hload
  have hbig : 255 * 2 ^ 24 ≤ (load32 (old.write b)).toNat := by
    rw [hload]
    exact Nat.le_add_left ..
  have hlt := (load32 (old.write b)).toNat_lt
  have hsign : (load32 (old.write b)).toInt32.toInt =
      ((load32 (old.write b)).toNat : Int).bmod (2 ^ 32) := BitVec.toInt_eq_toNat_bmod _
  rw [hsign, Int.bmod]
  omega

/-- The `read` of the code is a step of the handover: it gets the PID of the
child or, at the end of the file, what the variable holds. -/
theorem receivePid_step {pid : Int32} {s : Handover} (ht : s.tracer = .forked)
    {child : ChildWrite} {b : Bytes} {fits : b.length ≤ 4}
    (hread : (ReadResult.bytes b fits).CanFollow pid child) (hwhole : b = [] ∨ b.length = 4)
    (hsent : child = .sent → s.pipe = some pid)
    (hgone : child ≠ .sent → s.pipe = none ∧ s.child = .exited) (pidToTrace : Buf 4) :
    ∃ v t, Handover.Step pid s t ∧ t.tracer = .gotPid v ∧
      receivePid (.bytes b fits) pidToTrace = .str ((pidToTraceStr v).bytes ++ [0]) := by
  rw [receivePid_bytes]
  refine ⟨(load32 (pidToTrace.write b)).toInt32, ?_⟩
  cases child with
  | sent =>
      have hlen := hwhole.resolve_left hread.1
      rw [load32_write_complete hlen hread.2]
      exact ⟨_, .read ht (hsent rfl), rfl, rfl⟩
  | failed | killed =>
      obtain ⟨hp, hc⟩ := hgone nofun
      exact ⟨_, .readEof _ ht hp hc, rfl, rfl⟩

/-! ## When the PID is handed over -/

/-- **Handing over a PID.**  Whatever the variable holds, the parent fails or
returns the PID of the child exactly if there is no child, or `read` fails, or
`read` gets all of the PID and the string holds its digits. -/
theorem handedOver_iff (args : Arguments) (calls : SpawnCalls) (child : ChildWrite)
    (hpid : givenStr args.processPid = none) (hparent : calls.fork = -1 ∨ 0 < calls.fork)
    (hread : calls.read.CanFollow calls.fork child) :
    (∀ pidToTrace : Buf 4, HandedOver calls.fork (getPidToTrace args calls pidToTrace)) ↔
      ¬ Spawned args calls ∨ calls.read = .error ∨
        calls.read.Complete ∧ calls.fork.toInt < 10 ^ 9 := by
  by_cases hspawned : Spawned args calls
  swap
  · exact iff_of_true (fun old => handedOver_of_not_spawned hpid hparent hspawned old)
      (.inl hspawned)
  have hpos : 0 < calls.fork.toInt := Int32.lt_iff_toInt_lt.mp hspawned.fork
  simp only [getPidToTrace_of_spawned hpid hspawned, not_true_eq_false, hspawned, false_or]
  cases hcall : calls.read with
  | error => exact iff_of_true (fun old => trivial) (.inl rfl)
  | bytes b fits =>
      rw [hcall] at hread
      simp only [receivePid_bytes, handedOver_str_iff, ReadResult.Complete, reduceCtorEq, false_or]
      by_cases hlen : b.length = 4
      · have hwritten : b <+: (store32 calls.fork.toUInt32).bytes := by
          cases child with
          | sent => exact hread.2
          | failed | killed =>
              obtain rfl : b = [] := hread
              cases hlen
        simp only [load32_write_complete hlen hwritten, pidToTraceStr_eq_decimal_iff hpos, hlen,
          true_and]
        exact ⟨fun h => h (Buf.zero 4), fun h old => h⟩
      · refine iff_of_false (fun h => ?_) fun h => hlen h.1
        obtain ⟨old, hneg⟩ := exists_load32_write_neg (Nat.lt_of_le_of_ne fits hlen)
        exact pidToTraceStr_ne_decimal hneg _ (h old)

/-- The tracer spawns `ls`, and the child has PID 1234. -/
def spawnLs (read : ReadResult) : SpawnCalls := ⟨0, 1234, 1234, 4, none, read⟩

/-- The options `-p ls`. -/
def argumentsLs : Arguments := ⟨some ⟨ascii "ls", by decide⟩, none⟩

theorem spawned_spawnLs (read : ReadResult) : Spawned argumentsLs (spawnLs read) :=
  ⟨⟨⟨ascii "ls", by decide⟩, rfl, by decide⟩, by simp [spawnLs], by simp [spawnLs]⟩

theorem handedOver_iff_sent :
    (∀ pidToTrace : Buf 4, HandedOver 1234
      (getPidToTrace argumentsLs (spawnLs (.bytes (store32 1234).bytes (by decide)))
        pidToTrace)) ↔
      ¬ Spawned argumentsLs (spawnLs (.bytes (store32 1234).bytes (by decide))) ∨
      ReadResult.bytes (store32 1234).bytes (by decide) = .error ∨
        (ReadResult.bytes (store32 1234).bytes (by decide)).Complete ∧
          (1234 : Int32).toInt < 10 ^ 9 :=
  handedOver_iff argumentsLs (spawnLs (.bytes (store32 1234).bytes (by decide))) .sent rfl
    (.inr (by decide)) ⟨nofun, List.prefix_rfl⟩

/-- A child that is killed before its `write` makes the parent trace process 1,
if that is what the variable holds. -/
theorem unsent_pid_returned :
    ¬ ∀ (args : Arguments) (calls : SpawnCalls) (child : ChildWrite),
      givenStr args.processPid = none → (calls.fork = -1 ∨ 0 < calls.fork) →
      calls.read.CanFollow calls.fork child →
      ∀ pidToTrace : Buf 4, HandedOver calls.fork (getPidToTrace args calls pidToTrace) := by
  intro h
  have hstr := h argumentsLs (spawnLs (.bytes [] (by decide))) .killed rfl (.inr (by decide)) rfl
    (store32 1)
  rw [getPidToTrace_of_spawned rfl (spawned_spawnLs _)] at hstr
  rw [spawnLs, receivePid_bytes, handedOver_str_iff] at hstr
  have hone : (pidToTraceStr 1).bytes = decimal 1 := pidToTraceStr_bytes rfl (by decide)
  have hdigits : decimal 1 = decimal 1234 := hone.symm.trans hstr
  exact absurd (decimal_injective hdigits) (by decide)

end EPtracer
