import EPtracer.Lib.CString
import Mathlib.Tactic.Ring

/-!
# Which tasks are traced

Userspace stores one process identifier in `program_map`
(`initializeArray`).  Each BPF program asks `isTargetProgram` whether the
current task is the one meant.  The identifier is compared with the task's name
first, and then read as a decimal PID.

`strEquals` and `parsePid` are the two loops of `is_target_program`.  Each has
one lemma that says what it computes, in terms of the string a bounded reader
sees (`cut`).  `targetPid_eq` puts them together for an accepted identifier.
-/

namespace EPtracer

open CText

/-- `MAX_PROGRAM_STRING_LEN`. -/
def maxProgramStringLen : Nat := 100

/-- `TASK_COMM_LEN`, the size of the name the kernel keeps for a task. -/
def taskCommLen : Nat := 16

/-- The value of `program_map`. -/
abbrev ProgramName := Buf maxProgramStringLen

/-- The name of a task.  The kernel keeps it terminated. -/
@[ext] structure Comm extends CStr where
  /-- It fits with its terminator. -/
  short : bytes.length < taskCommLen
deriving DecidableEq

/-- A task, as far as the helpers show it. -/
structure Task where
  comm : Comm
  /-- Its thread group, which userspace calls a PID. -/
  tgid : UInt32
  tid : UInt32

/-- `bpf_get_current_pid_tgid()`. -/
def Task.pidTgid (t : Task) : UInt64 := t.tgid.toUInt64 <<< 32 ||| t.tid.toUInt64

/-- `bpf_get_current_comm(buf, MAX_PROGRAM_STRING_LEN)`: the name, and zeroes up
to the size of the buffer. -/
def Task.currentComm (t : Task) : ProgramName := strncpy maxProgramStringLen t.comm.toCStr

/-- A shell with PID 7. -/
def shell : Task := ⟨⟨⟨ascii "sh", by decide⟩, by decide⟩, 7, 7⟩

/-- The entry of `program_map` for the name `sh`. -/
def shellName : ProgramName := strncpy maxProgramStringLen ⟨ascii "sh", by decide⟩

/-! ## The loops -/

/-- `str_equals(s1, s2, size)`. -/
def strEquals : Nat → Ptr → Ptr → UInt32
  | 0, _, _ => 0
  | size + 1, s1, s2 =>
      if s1 0 ≠ s2 0 then
        if s1 0 < s2 0 then -1 else 1
      else if s1 0 = 0 then 0
      else strEquals size s1.next s2.next

/-- The loop of `is_target_program` that stands in for `bpf_strtoul`, from the
accumulator `pidToTrace`. -/
def parsePid : Nat → Ptr → UInt64 → UInt64
  | 0, _, pidToTrace => pidToTrace
  | size + 1, programToTrace, pidToTrace =>
      if isDigit (programToTrace 0) then
        parsePid size programToTrace.next (pidToTrace * 10 + (programToTrace 0 - 48).toUInt64)
      else pidToTrace

/-- `is_target_program()`.  The first two arguments are what
`bpf_get_current_comm` and the lookup in `program_map` give, `none` where they
fail. -/
def isTargetProgram (programName programToTrace : Option ProgramName) (pidTgid : UInt64) :
    UInt32 :=
  match programName, programToTrace with
  | none, _ => 0
  | some _, none => 0
  | some programName, some programToTrace =>
      let pid := (pidTgid >>> 32).toUInt32
      if strEquals maxProgramStringLen (ptr programName.bytes) (ptr programToTrace.bytes) ≠ 0 then
        let pidToTrace := parsePid maxProgramStringLen (ptr programToTrace.bytes) 0
        if pidToTrace = 0 ∨ pidToTrace ≠ pid.toUInt64 then 0 else pid
      else pid

/-- What `is_target_program` returns when task `t` runs a BPF program and
`program_map` holds `entry`. -/
def targetPid (entry : ProgramName) (t : Task) : UInt32 :=
  isTargetProgram (some t.currentComm) (some entry) t.pidTgid

/-- `initialize_array(fd, process_identifier)`, with `update` the result of
`bpf_map_update_elem` and `map` the value the map held.  A failed update leaves
the map. -/
def initializeArray (update : Int32) (processIdentifier : CStr) (map : ProgramName) :
    Int32 × ProgramName :=
  if maxProgramStringLen < processIdentifier.bytes.length then (-1, map)
  else
    let name := strncpy maxProgramStringLen processIdentifier
    (update, if update < 0 then map else name)

/-! ## What the loops compute -/

/-- One turn: the bytes differ, or both are NUL, or the loop goes on. -/
theorem strEquals_step (size : Nat) (s1 s2 : Ptr) :
    (s1 0 ≠ s2 0 ∧ strEquals (size + 1) s1 s2 = if s1 0 < s2 0 then -1 else 1) ∨
    (s1 0 = s2 0 ∧ s1 0 = 0 ∧ strEquals (size + 1) s1 s2 = 0) ∨
    (s1 0 = s2 0 ∧ s1 0 ≠ 0 ∧ strEquals (size + 1) s1 s2 = strEquals size s1.next s2.next) := by
  rw [strEquals]
  split
  next hdiff => exact .inl ⟨hdiff, rfl⟩
  next hsame =>
    split
    next hnul => exact .inr (.inl ⟨not_not.mp hsame, hnul, rfl⟩)
    next hne => exact .inr (.inr ⟨not_not.mp hsame, hne, rfl⟩)

/-- Two strings compare equal exactly when a reader bounded by `size` sees the
same string at both. -/
theorem strEquals_eq_zero_iff : ∀ (size : Nat) (s1 s2 : Ptr),
    strEquals size s1 s2 = 0 ↔ cut size s1 = cut size s2
  | 0, _, _ => by simp [strEquals, cut]
  | size + 1, s1, s2 => by
      have ih := strEquals_eq_zero_iff size s1.next s2.next
      rcases strEquals_step size s1 s2 with
        ⟨hdiff, hcall⟩ | ⟨hsame, hnul, hcall⟩ | ⟨hsame, hne, hcall⟩
      · refine iff_of_false ?_ (cut_ne_cut size hdiff)
        rw [hcall]
        split
        next => decide
        next => decide
      · rw [hcall, cut_of_nul size hnul, cut_of_nul size (hsame ▸ hnul)]
        exact iff_of_true rfl rfl
      · rw [hcall, ih, cut_of_ne size hne, cut_of_ne size (hsame ▸ hne), hsame]
        simp only [List.cons.injEq, true_and]

theorem foldl_digits_mod (m : Nat) (ds : Bytes) : ∀ v : Nat,
    ds.foldl (fun v c => v * 10 + (c.toNat - 48)) (v % m) % m =
      ds.foldl (fun v c => v * 10 + (c.toNat - 48)) v % m := by
  induction ds with
  | nil => simp
  | cons c ds ih =>
      intro v
      simp only [List.foldl_cons]
      rw [← ih (v % m * 10 + _), ← ih (v * 10 + _)]
      congr 2
      simp [Nat.add_mod, Nat.mul_mod]

theorem toNat_digit {c : UInt8} (hc : isDigit c = true) :
    ((c - 48).toUInt64).toNat = c.toNat - 48 := by
  obtain ⟨hlo, -⟩ := (isDigit_iff c).mp hc
  have hle : (48 : UInt8) ≤ c := UInt8.le_iff_toNat_le.mpr (by simpa using hlo)
  rw [UInt8.toNat_toUInt64, UInt8.toNat_sub_of_le _ _ hle]
  rfl

/-- The digit loop computes the value of the leading digits, modulo the word
size. -/
theorem toNat_parsePid : ∀ (size : Nat) (p : Ptr) (acc : UInt64),
    (parsePid size p acc).toNat =
      (digitPrefix (cut size p)).foldl (fun v c => v * 10 + (c.toNat - 48)) acc.toNat % 2 ^ 64
  | 0, _, acc => by
      simp only [parsePid, cut, digitPrefix, List.takeWhile_nil, List.foldl_nil]
      exact (Nat.mod_eq_of_lt acc.toNat_lt).symm
  | size + 1, p, acc => by
      by_cases hd : isDigit (p 0) = true
      · have h0 : p 0 ≠ 0 := by
          intro h0
          rw [h0] at hd
          exact absurd hd (by decide)
        have hacc : (acc * 10 + (p 0 - 48).toUInt64).toNat =
            (acc.toNat * 10 + ((p 0).toNat - 48)) % 2 ^ 64 := by
          rw [UInt64.toNat_add, UInt64.toNat_mul, toNat_digit hd]
          simp [Nat.add_mod, Nat.mul_mod]
        simp only [parsePid, hd, if_true, cut, h0, if_false, digitPrefix, List.takeWhile_cons,
          List.foldl_cons]
        rw [toNat_parsePid size, hacc, foldl_digits_mod]
        rfl
      · have hpre : digitPrefix (cut (size + 1) p) = [] := by
          by_cases h0 : p 0 = 0
          · simp [cut, h0, digitPrefix]
          · simp [cut, h0, digitPrefix, hd]
        simp only [parsePid, hd, hpre, List.foldl_nil]
        exact (Nat.mod_eq_of_lt acc.toNat_lt).symm

/-! ## Selection by an accepted identifier -/

theorem Task.tgid_of_pidTgid (t : Task) : (t.pidTgid >>> 32).toUInt32 = t.tgid := by
  apply UInt32.toNat_inj.mp
  have hhi := t.tgid.toNat_lt
  have hlo := t.tid.toNat_lt
  have hshift : (t.tgid.toUInt64 <<< 32).toNat = t.tgid.toNat <<< 32 := by
    simp [UInt64.toNat_shiftLeft, Nat.shiftLeft_eq]
    omega
  have hor : t.pidTgid.toNat = t.tgid.toNat <<< 32 + t.tid.toNat := by
    rw [Task.pidTgid, UInt64.toNat_or, hshift, Nat.shiftLeft_add_eq_or_of_lt (by simpa using hlo)]
    simp
  simp only [UInt64.toNat_toUInt32, UInt64.toNat_shiftRight, hor]
  simp [Nat.shiftLeft_eq, Nat.shiftRight_eq_div_pow]
  omega

/-- A task that is selected is selected by its thread group. -/
theorem targetPid_eq_tgid {entry : ProgramName} {t : Task} (h : targetPid entry t ≠ 0) :
    targetPid entry t = t.tgid := by
  simp only [targetPid, isTargetProgram, Task.tgid_of_pidTgid] at h ⊢
  split at h
  next hname =>
    split at h
    next => exact absurd rfl h
    next hpid => rw [if_pos hname, if_neg hpid]
  next hname => rw [if_neg hname]

theorem initializeArray_accepted {update : Int32} {processIdentifier : CStr} {map : ProgramName}
    (h : 0 ≤ (initializeArray update processIdentifier map).1) :
    processIdentifier.bytes.length ≤ maxProgramStringLen ∧
      (initializeArray update processIdentifier map).2 =
        strncpy maxProgramStringLen processIdentifier := by
  unfold initializeArray at h ⊢
  split at h
  next => exact absurd (show (0 : Int32) ≤ -1 from h) (by decide)
  next hlen =>
    have hupd : ¬ update < 0 := Int32.not_lt.mpr h
    exact ⟨by omega, by rw [if_neg hlen]; simp [hupd]⟩

/-- The number the digit loop finds in an identifier. -/
def numericPrefix (identifier : CStr) : Nat :=
  decimalValue (digitPrefix identifier.bytes) % 2 ^ 64

theorem currentComm_cut (t : Task) :
    cut maxProgramStringLen (ptr t.currentComm.bytes) = t.comm.bytes := by
  have := t.comm.short
  exact cut_strncpy _ (by simp only [taskCommLen, maxProgramStringLen] at *; omega)

/-- `is_target_program` on a stored identifier: the task's name is the
identifier, or its thread group is the number in front of it. -/
theorem targetPid_eq {identifier : CStr} (hlen : identifier.bytes.length ≤ maxProgramStringLen)
    (t : Task) :
    targetPid (strncpy maxProgramStringLen identifier) t =
      if t.comm.bytes = identifier.bytes ∨ numericPrefix identifier = t.tgid.toNat then t.tgid
      else 0 := by
  have hcmp : strEquals maxProgramStringLen (ptr t.currentComm.bytes)
      (ptr (strncpy maxProgramStringLen identifier).bytes) = 0 ↔
        t.comm.bytes = identifier.bytes := by
    rw [strEquals_eq_zero_iff, currentComm_cut, cut_strncpy identifier hlen]
  have hnum : (parsePid maxProgramStringLen
      (ptr (strncpy maxProgramStringLen identifier).bytes) 0).toNat = numericPrefix identifier := by
    rw [toNat_parsePid, cut_strncpy identifier hlen]
    rfl
  have hpid : ∀ p : UInt64, p = t.tgid.toUInt64 ↔ p.toNat = t.tgid.toNat := by
    intro p
    rw [← UInt64.toNat_inj]
    simp
  have hzero : ∀ p : UInt64, p = 0 ↔ p.toNat = 0 := by
    intro p
    rw [← UInt64.toNat_inj]
    simp
  have htgid : t.tgid = 0 ↔ t.tgid.toNat = 0 := by
    rw [← UInt32.toNat_inj]
    simp
  simp only [targetPid, isTargetProgram, Task.tgid_of_pidTgid, ne_eq, hcmp, hpid, hzero, hnum]
  by_cases hname : t.comm.bytes = identifier.bytes
  · simp [hname]
  · by_cases hval : numericPrefix identifier = t.tgid.toNat
    · by_cases h0 : numericPrefix identifier = 0
      · simp [hname, hval, htgid.mpr (hval ▸ h0)]
      · simp [hname, hval, hval ▸ h0]
    · simp [hname, hval]

end EPtracer
