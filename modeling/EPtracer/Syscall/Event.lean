import EPtracer.Lib.CString
import Mathlib.Algebra.Group.Int.Defs
import Mathlib.Algebra.GroupWithZero.Nat

/-!
# System calls and the events that report them

`SyscallEvent` is `struct syscall_event_t`, the record both sides of the ring
buffer share.  Its `type` is the word the record holds, since a record that was
not filled yet may hold any word.  `SyscallEventType.ofCode` reads it back.

`Build` is what the preprocessor decides: whether the build is for Android, and
which of the `__NR_` constants `<asm/unistd.h>` defines.
-/

namespace EPtracer

open CText

/-- `MAX_BUF_SIZE`. -/
def maxBufSize : Nat := 128

/-! ## Events -/

/-- `enum syscall_event_type`. -/
inductive SyscallEventType where
  | ptrace | read | execve | fork | clone | mprotect
  | openat | mmap | write | chown | mount | umount
  | ioctl | setuid | setgid | capset | prctl | keyctl
deriving DecidableEq

/-- The value of an enumerator. -/
def SyscallEventType.code : SyscallEventType → UInt32
  | .ptrace => 0 | .read => 1 | .execve => 2 | .fork => 3 | .clone => 4 | .mprotect => 5
  | .openat => 6 | .mmap => 7 | .write => 8 | .chown => 9 | .mount => 10 | .umount => 11
  | .ioctl => 12 | .setuid => 13 | .setgid => 14 | .capset => 15 | .prctl => 16 | .keyctl => 17

/-- The type a word in a record stands for. -/
def SyscallEventType.ofCode (w : UInt32) : Option SyscallEventType :=
  match w.toNat with
  | 0 => some .ptrace | 1 => some .read | 2 => some .execve | 3 => some .fork
  | 4 => some .clone | 5 => some .mprotect | 6 => some .openat | 7 => some .mmap
  | 8 => some .write | 9 => some .chown | 10 => some .mount | 11 => some .umount
  | 12 => some .ioctl | 13 => some .setuid | 14 => some .setgid | 15 => some .capset
  | 16 => some .prctl | 17 => some .keyctl
  | _ => none

@[simp] theorem SyscallEventType.ofCode_code (t : SyscallEventType) : ofCode t.code = some t := by
  cases t <;> rfl

theorem SyscallEventType.ofCode_of_eq {w : UInt32} {t : SyscallEventType} (h : w = t.code) :
    ofCode w = some t := by
  rw [h, ofCode_code]

theorem SyscallEventType.code_injective {t u : SyscallEventType} (h : t.code = u.code) :
    t = u := by
  have := congrArg ofCode h
  simpa using this

/-- `(int)w`: the low 32 bits, with a sign. -/
def toInt (w : UInt64) : Int32 := w.toUInt32.toInt32

theorem toInt_toInt (w : UInt64) : (toInt w).toInt = (w.toNat : Int).bmod (2 ^ 32) := by
  change w.toUInt32.toBitVec.toInt = _
  rw [BitVec.toInt_eq_toNat_bmod, UInt32.toNat_toBitVec, UInt64.toNat_toUInt32,
    Int.natCast_emod]
  exact Int.emod_bmod _ _

/-- The six arguments of a call have numerals for indices. -/
instance neZeroSix : NeZero 6 := ⟨Nat.succ_ne_zero 5⟩

/-- One of the strings of an event. -/
abbrev EventString := Buf (maxBufSize + 1)

/-- `struct syscall_event_t`. -/
structure SyscallEvent where
  /-- The `enum syscall_event_type` word. -/
  type : UInt32
  pid : Int32
  args : Fin 6 → UInt64
  str1 : EventString
  str2 : EventString
  str3 : EventString

/-- A record of zeros. -/
def blankEvent : SyscallEvent :=
  ⟨0, 0, fun _ => 0, Buf.zero _, Buf.zero _, Buf.zero _⟩

/-- A record with the letter `A` all over it. -/
def staleEvent : SyscallEvent :=
  let str : EventString := ⟨List.replicate (maxBufSize + 1) 65, by simp⟩
  ⟨0x41414141, 0x41414141, fun _ => 0x4141414141414141, str, str, str⟩

/-- `sizeof(struct syscall_event_t)`: two words, six arguments and three
strings, rounded up to the alignment of an argument. -/
def sizeofSyscallEvent : Nat := (4 + 4 + 6 * 8 + 3 * (maxBufSize + 1) + 7) / 8 * 8

/-- The number of events `syscall_rb_map` holds.  Each takes a header of 8
bytes, and the kernel never fills the last byte of the 4096. -/
def syscallRbRecords : Nat := (4096 - 1) / (8 + sizeofSyscallEvent)

example : sizeofSyscallEvent = 448 ∧ syscallRbRecords = 8 := by decide

/-! ## System calls -/

/-- The constants `__NR_…` the switch of `sys_enter_multiplexer` has a case
for, in its order. -/
inductive SyscallNr where
  | nrPtrace | nrRead | nrExecve | nrFork | nrClone | nrMprotect | nrOpenat | nrOpen | nrMmap
  | nrWrite | nrChown | nrMount | nrUmount2 | nrUmount | nrIoctl | nrSetuid | nrSetgid
  | nrCapset | nrPrctl | nrKeyctl
deriving DecidableEq

/-- Every system call the tracer has a case for. -/
def SyscallNr.all : List SyscallNr :=
  [.nrPtrace, .nrRead, .nrExecve, .nrFork, .nrClone, .nrMprotect, .nrOpenat, .nrOpen, .nrMmap,
    .nrWrite, .nrChown, .nrMount, .nrUmount2, .nrUmount, .nrIoctl, .nrSetuid, .nrSetgid,
    .nrCapset, .nrPrctl, .nrKeyctl]

theorem SyscallNr.mem_all (n : SyscallNr) : n ∈ SyscallNr.all := by
  cases n <;> decide

/-- What the preprocessor decides. -/
structure Build where
  isAndroid : Bool
  /-- The value of each `__NR_` constant that is defined. -/
  nr : SyscallNr → Option Int64
  /-- A switch has no two cases of one value. -/
  nr_injective : ∀ m n v, nr m = some v → nr n = some v → m = n

/-- The case of the switch that `syscall_id` selects. -/
def Build.case (b : Build) (syscallId : Int64) : Option SyscallNr :=
  SyscallNr.all.find? fun n => b.nr n = some syscallId

theorem Build.case_eq_some_iff (b : Build) (syscallId : Int64) (n : SyscallNr) :
    b.case syscallId = some n ↔ b.nr n = some syscallId := by
  constructor
  · intro h
    simpa using List.find?_some h
  · intro h
    cases hc : b.case syscallId with
    | none => simpa [h] using List.find?_eq_none.mp hc n n.mem_all
    | some m =>
        have hm : b.nr m = some syscallId := by simpa using List.find?_some hc
        rw [b.nr_injective m n syscallId hm h]

/-- `<asm/unistd.h>` of x86-64, which has `umount2` and no `umount`. -/
def nrX86 : SyscallNr → Option Int64
  | .nrRead => some 0
  | .nrWrite => some 1
  | .nrOpen => some 2
  | .nrMmap => some 9
  | .nrMprotect => some 10
  | .nrIoctl => some 16
  | .nrClone => some 56
  | .nrFork => some 57
  | .nrExecve => some 59
  | .nrChown => some 92
  | .nrPtrace => some 101
  | .nrSetuid => some 105
  | .nrSetgid => some 106
  | .nrCapset => some 126
  | .nrPrctl => some 157
  | .nrMount => some 165
  | .nrUmount2 => some 166
  | .nrKeyctl => some 250
  | .nrOpenat => some 257
  | .nrUmount => none

/-- The build for x86. -/
def buildX86 : Build where
  isAndroid := false
  nr := nrX86
  nr_injective := by
    have h : ∀ m ∈ SyscallNr.all, ∀ n ∈ SyscallNr.all,
        nrX86 m ≠ none → nrX86 m = nrX86 n → m = n := by decide
    intro m n v hm hn
    exact h m m.mem_all n n.mem_all (by simp [hm]) (hm.trans hn.symm)

end EPtracer
