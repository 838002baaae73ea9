import EPtracer.Lib.Printf
import EPtracer.Syscall.Event

/-!
# The handler of events

`syscallEventHandler` is the callback of the consumer.  It writes one line for
an event: the PID, the name of the call, and the arguments under labels, which
depend on the type of the event.

The handler is `snprintf` into a buffer of 1024 bytes, with one format string
for each type, and a `printf` of that buffer.  `Line` is what the strings have
in common, and `eventLabels` what they differ in.  `syscallEventHandler_eq`
says that the handler prints the `Line` of an event in full: no event fills the
buffer, and no string of an event is read past its end if it has one.
-/

namespace EPtracer

open CText

/-- `sizeof(metric)`. -/
def sizeofMetric : Nat := 1024

/-! ## The code -/

/-- The switch of `syscall_event_handler`: the contents of `metric` after it.
It is `none` where a string of the event has no end. -/
def formatMetric (ev : SyscallEvent) (microseconds : Int64) : Option Bytes :=
  match SyscallEventType.ofCode ev.type with
  | some .ptrace =>
      snprintf sizeofMetric "eptracer\x7bpid=\"%d\", syscall=\"ptrace\", request=\"%d\", pid=\"%d\", addr=\"%p\", data=\"%p\"\x7d %ld"
        [.int ev.pid, .int (toInt (ev.args 0)), .int (toInt (ev.args 1)), .ptr (ev.args 2),
          .ptr (ev.args 3), .long microseconds]
  | some .read =>
      snprintf sizeofMetric "eptracer\x7bpid=\"%d\", syscall=\"read\", fd=\"%d\", buf=\"%p\", count=\"%lu\"\x7d %ld"
        [.int ev.pid, .int (toInt (ev.args 0)), .ptr (ev.args 1), .ulong (ev.args 2),
          .long microseconds]
  | some .execve => do
      let str1 ← cString ev.str1.bytes
      snprintf sizeofMetric "eptracer\x7bpid=\"%d\", syscall=\"execve\", filename=\"%s\", argv=\"%p\", envp=\"%p\"\x7d %ld"
        [.int ev.pid, .str str1, .ptr (ev.args 1), .ptr (ev.args 2), .long microseconds]
  | some .fork =>
      snprintf sizeofMetric "eptracer\x7bpid=\"%d\", syscall=\"fork\"\x7d %ld"
        [.int ev.pid, .long microseconds]
  | some .clone =>
      snprintf sizeofMetric "eptracer\x7bpid=\"%d\", syscall=\"clone\", flags=\"%lx\", child_stack=\"%p\", parent_tid=\"%p\", child_tid=\"%p\"\x7d %ld"
        [.int ev.pid, .ulong (ev.args 0), .ptr (ev.args 1), .ptr (ev.args 2), .ptr (ev.args 3),
          .long microseconds]
  | some .mprotect =>
      snprintf sizeofMetric "eptracer\x7bpid=\"%d\", syscall=\"mprotect\", addr=\"%p\", len=\"%lu\", prot=\"%d\"\x7d %ld"
        [.int ev.pid, .ptr (ev.args 0), .ulong (ev.args 1), .int (toInt (ev.args 2)),
          .long microseconds]
  | some .openat => do
      let str1 ← cString ev.str1.bytes
      snprintf sizeofMetric "eptracer\x7bpid=\"%d\", syscall=\"openat\", fd=\"%d\", filename=\"%s\", flags=\"%d\", mode=\"%d\"\x7d %ld"
        [.int ev.pid, .int (toInt (ev.args 0)), .str str1, .int (toInt (ev.args 2)),
          .int (toInt (ev.args 3)), .long microseconds]
  | some .mmap =>
      snprintf sizeofMetric "eptracer\x7bpid=\"%d\", syscall=\"mmap\", addr=\"%p\", length=\"%lu\", prot=\"%d\", flags=\"%d\", fd=\"%d\", off=\"%lu\"\x7d %ld"
        [.int ev.pid, .ptr (ev.args 0), .ulong (ev.args 1), .int (toInt (ev.args 2)),
          .int (toInt (ev.args 3)), .int (toInt (ev.args 4)), .ulong (ev.args 5),
          .long microseconds]
  | some .write =>
      snprintf sizeofMetric "eptracer\x7bpid=\"%d\", syscall=\"write\", fd=\"%d\", buf=\"%p\", count=\"%lu\"\x7d %ld"
        [.int ev.pid, .int (toInt (ev.args 0)), .ptr (ev.args 1), .ulong (ev.args 2),
          .long microseconds]
  | some .chown => do
      let str1 ← cString ev.str1.bytes
      snprintf sizeofMetric "eptracer\x7bpid=\"%d\", syscall=\"chown\", filename=\"%s\", uid=\"%d\", gid=\"%d\"\x7d %ld"
        [.int ev.pid, .str str1, .int (toInt (ev.args 1)), .int (toInt (ev.args 2)),
          .long microseconds]
  | some .mount => do
      let str1 ← cString ev.str1.bytes
      let str2 ← cString ev.str2.bytes
      let str3 ← cString ev.str3.bytes
      snprintf sizeofMetric "eptracer\x7bpid=\"%d\", syscall=\"mount\", source=\"%s\", target=\"%s\", fstype=\"%s\", flags=\"%lx\", data=\"%p\"\x7d %ld"
        [.int ev.pid, .str str1, .str str2, .str str3, .ulong (ev.args 3), .ptr (ev.args 4),
          .long microseconds]
  | some .umount => do
      let str1 ← cString ev.str1.bytes
      snprintf sizeofMetric "eptracer\x7bpid=\"%d\", syscall=\"umount\", target=\"%s\", flags=\"%d\"\x7d %ld"
        [.int ev.pid, .str str1, .int (toInt (ev.args 1)), .long microseconds]
  | some .ioctl =>
      snprintf sizeofMetric "eptracer\x7bpid=\"%d\", syscall=\"binder_ioctl\", fd=\"%d\", cmd=\"%lu\", arg=\"%lu\"\x7d %ld"
        [.int ev.pid, .int (toInt (ev.args 0)), .ulong (ev.args 1), .ulong (ev.args 2),
          .long microseconds]
  | some .setuid =>
      snprintf sizeofMetric "eptracer\x7bpid=\"%d\", syscall=\"setuid\", uid=\"%d\"\x7d %ld"
        [.int ev.pid, .int (toInt (ev.args 0)), .long microseconds]
  | some .setgid =>
      snprintf sizeofMetric "eptracer\x7bpid=\"%d\", syscall=\"setgid\", gid=\"%d\"\x7d %ld"
        [.int ev.pid, .int (toInt (ev.args 0)), .long microseconds]
  | some .capset =>
      snprintf sizeofMetric "eptracer\x7bpid=\"%d\", syscall=\"capset\", hdr=\"%p\", data=\"%p\"\x7d %ld"
        [.int ev.pid, .ptr (ev.args 0), .ptr (ev.args 1), .long microseconds]
  | some .prctl =>
      snprintf sizeofMetric "eptracer\x7bpid=\"%d\", syscall=\"prctl\", option=\"%d\", arg2=\"%lu\", arg3=\"%lu\", arg4=\"%lu\", arg5=\"%lu\"\x7d %ld"
        [.int ev.pid, .int (toInt (ev.args 0)), .ulong (ev.args 1), .ulong (ev.args 2),
          .ulong (ev.args 3), .ulong (ev.args 4), .long microseconds]
  | some .keyctl =>
      snprintf sizeofMetric "eptracer\x7bpid=\"%d\", syscall=\"keyctl\", cmd=\"%d\", arg2=\"%lu\", arg3=\"%lu\", arg4=\"%lu\", arg5=\"%lu\"\x7d %ld"
        [.int ev.pid, .int (toInt (ev.args 0)), .ulong (ev.args 1), .ulong (ev.args 2),
          .ulong (ev.args 3), .ulong (ev.args 4), .long microseconds]
  | none =>
      snprintf sizeofMetric "eptracer\x7bpid=\"%d\", syscall=\"unknown\"\x7d %ld"
        [.int ev.pid, .long microseconds]

/-- `syscall_event_handler(ctx, data, size)`: what it writes to the standard
output, at the time `clock_gettime` gives. -/
def syscallEventHandler (ev : SyscallEvent) (microseconds : Int64) : Option Bytes := do
  let metric ← formatMetric ev microseconds
  let str ← cString metric
  format "%s\n" [.str str]

/-! ## Lines -/

/-- The value of a label. -/
inductive LabelValue where
  /-- The low 32 bits of `w`, with a sign, under `%d`. -/
  | int (w : UInt64)
  | ulong (w : UInt64)
  | hex (w : UInt64)
  | ptr (w : UInt64)
  | str (s : Bytes)
deriving DecidableEq

/-- A value as its conversion prints it. -/
def LabelValue.text : LabelValue → Bytes
  | .int w => signed ((w.toNat : Int).bmod (2 ^ 32))
  | .ulong w => decimal w.toNat
  | .hex w => CText.hex w.toNat
  | .ptr w => pointer w
  | .str s => s

/-- The labels that follow the name of the call. -/
abbrev Labels := List (String × LabelValue)

/-- The text of labels, with `rest` after it. -/
def Labels.text : Labels → Bytes → Bytes
  | [], rest => rest
  | (key, value) :: ls, rest =>
      ascii ", " ++ (ascii key ++ (ascii "=\"" ++ (value.text ++ (ascii "\"" ++ Labels.text ls rest))))

/-- What a line says. -/
structure Line where
  pid : Int32
  name : String
  labels : Labels
  microseconds : Int64

/-- A line as it is printed, without its newline. -/
def Line.text (l : Line) : Bytes :=
  ascii "eptracer\x7bpid=\"" ++ (signed l.pid.toInt ++ (ascii "\", syscall=\"" ++ (ascii l.name ++
    (ascii "\"" ++ l.labels.text (ascii "\x7d " ++ signed l.microseconds.toInt)))))

/-- The name a line has for a type. -/
def SyscallEventType.name : SyscallEventType → String
  | .ptrace => "ptrace" | .read => "read" | .execve => "execve" | .fork => "fork"
  | .clone => "clone" | .mprotect => "mprotect" | .openat => "openat" | .mmap => "mmap"
  | .write => "write" | .chown => "chown" | .mount => "mount" | .umount => "umount"
  | .ioctl => "binder_ioctl" | .setuid => "setuid" | .setgid => "setgid" | .capset => "capset"
  | .prctl => "prctl" | .keyctl => "keyctl"

/-- The labels of an event of a type. -/
def eventLabels (ev : SyscallEvent) : SyscallEventType → Option Labels
  | .ptrace => some [("request", .int (ev.args 0)), ("pid", .int (ev.args 1)),
      ("addr", .ptr (ev.args 2)), ("data", .ptr (ev.args 3))]
  | .read | .write => some [("fd", .int (ev.args 0)), ("buf", .ptr (ev.args 1)),
      ("count", .ulong (ev.args 2))]
  | .execve => do
      let str1 ← cString ev.str1.bytes
      some [("filename", .str str1), ("argv", .ptr (ev.args 1)), ("envp", .ptr (ev.args 2))]
  | .fork => some []
  | .clone => some [("flags", .hex (ev.args 0)), ("child_stack", .ptr (ev.args 1)),
      ("parent_tid", .ptr (ev.args 2)), ("child_tid", .ptr (ev.args 3))]
  | .mprotect => some [("addr", .ptr (ev.args 0)), ("len", .ulong (ev.args 1)),
      ("prot", .int (ev.args 2))]
  | .openat => do
      let str1 ← cString ev.str1.bytes
      some [("fd", .int (ev.args 0)), ("filename", .str str1), ("flags", .int (ev.args 2)),
        ("mode", .int (ev.args 3))]
  | .mmap => some [("addr", .ptr (ev.args 0)), ("length", .ulong (ev.args 1)),
      ("prot", .int (ev.args 2)), ("flags", .int (ev.args 3)), ("fd", .int (ev.args 4)),
      ("off", .ulong (ev.args 5))]
  | .chown => do
      let str1 ← cString ev.str1.bytes
      some [("filename", .str str1), ("uid", .int (ev.args 1)), ("gid", .int (ev.args 2))]
  | .mount => do
      let str1 ← cString ev.str1.bytes
      let str2 ← cString ev.str2.bytes
      let str3 ← cString ev.str3.bytes
      some [("source", .str str1), ("target", .str str2), ("fstype", .str str3),
        ("flags", .hex (ev.args 3)), ("data", .ptr (ev.args 4))]
  | .umount => do
      let str1 ← cString ev.str1.bytes
      some [("target", .str str1), ("flags", .int (ev.args 1))]
  | .ioctl => some [("fd", .int (ev.args 0)), ("cmd", .ulong (ev.args 1)),
      ("arg", .ulong (ev.args 2))]
  | .setuid => some [("uid", .int (ev.args 0))]
  | .setgid => some [("gid", .int (ev.args 0))]
  | .capset => some [("hdr", .ptr (ev.args 0)), ("data", .ptr (ev.args 1))]
  | .prctl => some [("option", .int (ev.args 0)), ("arg2", .ulong (ev.args 1)),
      ("arg3", .ulong (ev.args 2)), ("arg4", .ulong (ev.args 3)), ("arg5", .ulong (ev.args 4))]
  | .keyctl => some [("cmd", .int (ev.args 0)), ("arg2", .ulong (ev.args 1)),
      ("arg3", .ulong (ev.args 2)), ("arg4", .ulong (ev.args 3)), ("arg5", .ulong (ev.args 4))]

/-! ## Every line fits the buffer -/

/-- A value that leaves room for the rest of its line, and does not end it. -/
def LabelValue.Fits (v : LabelValue) : Prop := v.text.length ≤ maxBufSize ∧ 0 ∉ v.text

theorem LabelValue.fits_of_plain {v : LabelValue} (hplain : Plain v.text)
    (hlen : v.text.length ≤ maxBufSize) : v.Fits :=
  ⟨hlen, fun h => (hplain 0 h).2.2 rfl⟩

@[simp] theorem LabelValue.fits_int (w : UInt64) : (LabelValue.int w).Fits := by
  have hlt := (toInt w).toInt_lt
  have hle := (toInt w).le_toInt
  have hlen := length_signed_le (i := (toInt w).toInt) (k := 10) (by omega) (by decide)
  have htext : (LabelValue.int w).text = signed (toInt w).toInt := by rw [text, toInt_toInt]
  apply fits_of_plain <;> rw [htext]
  · exact plain_signed _
  · exact hlen.trans (by decide)

@[simp] theorem LabelValue.fits_ulong (w : UInt64) : (LabelValue.ulong w).Fits := by
  have hlt := w.toNat_lt
  have hlen := length_decimal_le (n := w.toNat) (k := 20) (by omega) (by decide)
  exact fits_of_plain (plain_decimal _) (hlen.trans (by decide))

@[simp] theorem LabelValue.fits_hex (w : UInt64) : (LabelValue.hex w).Fits :=
  fits_of_plain (plain_hex _)
    ((length_hex_le (n := w.toNat) (k := 16) w.toNat_lt (by decide)).trans (by decide))

@[simp] theorem LabelValue.fits_ptr (w : UInt64) : (LabelValue.ptr w).Fits :=
  fits_of_plain (plain_pointer _) ((length_pointer_le w).trans (by decide))

theorem LabelValue.fits_str {str : EventString} {s : Bytes} (h : cString str.bytes = some s) :
    (LabelValue.str s).Fits := by
  have hlt := length_cString_lt h
  rw [str.size] at hlt
  exact ⟨Nat.le_of_lt_succ hlt, cString_noNul h⟩

/-- A key, or the name of a call. -/
def FitsKey (key : String) : Prop := (ascii key).length ≤ 12 ∧ Plain (ascii key)

instance (key : String) : Decidable (FitsKey key) :=
  inferInstanceAs (Decidable (_ ∧ ∀ c ∈ ascii key, _))

/-- Labels that leave room for the rest of their line, and do not end it. -/
structure Labels.Fits (ls : Labels) : Prop where
  /-- There are six at most, one for each argument. -/
  few : ls.length ≤ 6
  keys : ∀ key ∈ ls.map Prod.fst, FitsKey key
  values : ∀ value ∈ ls.map Prod.snd, value.Fits

theorem SyscallEventType.fits_name (ty : SyscallEventType) : FitsKey ty.name := by
  cases ty <;> decide +kernel

theorem eventLabels_fits {ev : SyscallEvent} {ty : SyscallEventType} {ls : Labels}
    (h : eventLabels ev ty = some ls) : ls.Fits := by
  cases ty <;>
    simp only [eventLabels, Option.bind_eq_bind, Option.bind_eq_some_iff, Option.some.injEq] at h
  case execve | openat | chown | umount =>
    obtain ⟨str1, h1, rfl⟩ := h
    exact ⟨by simp, by simp only [List.map]; decide +kernel, by simp [LabelValue.fits_str h1]⟩
  case mount =>
    obtain ⟨str1, h1, str2, h2, str3, h3, rfl⟩ := h
    exact ⟨by simp, by simp only [List.map]; decide +kernel,
      by simp [LabelValue.fits_str h1, LabelValue.fits_str h2, LabelValue.fits_str h3]⟩
  all_goals
    subst h
    exact ⟨by simp, by simp only [List.map]; decide +kernel, by simp⟩

theorem Labels.length_text_le (rest : Bytes) : ∀ {ls : Labels},
    (∀ key ∈ ls.map Prod.fst, FitsKey key) → (∀ value ∈ ls.map Prod.snd, value.Fits) →
    (ls.text rest).length ≤ ls.length * 145 + rest.length
  | [], _, _ => by simp [Labels.text]
  | (key, value) :: ls, hkeys, hvalues => by
      simp only [List.map_cons, List.forall_mem_cons] at hkeys hvalues
      have ih := Labels.length_text_le rest hkeys.2 hvalues.2
      have hkey := hkeys.1.1
      have hvalue := hvalues.1.1
      have hcomma : (ascii ", ").length = 2 := by decide
      have hopen : (ascii "=\"").length = 2 := by decide
      have hclose : (ascii "\"").length = 1 := by decide
      simp only [Labels.text, List.length_append, List.length_cons, maxBufSize] at hvalue ⊢
      omega

theorem Labels.noNul_text {rest : Bytes} (hrest : 0 ∉ rest) : ∀ {ls : Labels},
    (∀ key ∈ ls.map Prod.fst, FitsKey key) → (∀ value ∈ ls.map Prod.snd, value.Fits) →
    0 ∉ ls.text rest
  | [], _, _ => hrest
  | (key, value) :: ls, hkeys, hvalues => by
      simp only [List.map_cons, List.forall_mem_cons] at hkeys hvalues
      have ih := Labels.noNul_text hrest hkeys.2 hvalues.2
      have hkey : 0 ∉ ascii key := fun h => (hkeys.1.2 0 h).2.2 rfl
      have hcomma : (0 : UInt8) ∉ ascii ", " := by decide
      have hopen : (0 : UInt8) ∉ ascii "=\"" := by decide
      have hclose : (0 : UInt8) ∉ ascii "\"" := by decide
      simp only [Labels.text, List.mem_append, not_or]
      exact ⟨hcomma, hkey, hopen, hvalues.1.2, hclose, ih⟩

/-- A line whose parts are short. -/
structure Line.Fits (l : Line) : Prop where
  name : FitsKey l.name
  labels : l.labels.Fits

/-- Such a line fits the buffer, with its terminator. -/
theorem Line.Fits.length_text_lt {l : Line} (h : l.Fits) : l.text.length < sizeofMetric := by
  have hpid_lt := l.pid.toInt_lt
  have hpid_le := l.pid.le_toInt
  have hpid := length_signed_le (i := l.pid.toInt) (k := 10) (by omega) (by decide)
  have htime_lt := l.microseconds.toInt_lt
  have htime_le := l.microseconds.le_toInt
  have htime := length_signed_le (i := l.microseconds.toInt) (k := 19) (by omega) (by decide)
  have hlabels := Labels.length_text_le (ascii "\x7d " ++ signed l.microseconds.toInt)
    h.labels.keys h.labels.values
  have hname := h.name.1
  have hfew := h.labels.few
  have hstart : (ascii "eptracer\x7bpid=\"").length = 14 := by decide
  have hsyscall : (ascii "\", syscall=\"").length = 12 := by decide
  have hclose : (ascii "\"").length = 1 := by decide
  have hend : (ascii "\x7d ").length = 2 := by decide
  simp only [Line.text, List.length_append, sizeofMetric] at hlabels ⊢
  omega

theorem Line.Fits.noNul_text {l : Line} (h : l.Fits) : 0 ∉ l.text := by
  have hplain {b : Bytes} (hb : Plain b) : 0 ∉ b := fun h => (hb 0 h).2.2 rfl
  have hend : 0 ∉ ascii "\x7d " ++ signed l.microseconds.toInt := by
    simp only [List.mem_append, not_or]
    exact ⟨by decide, hplain (plain_signed _)⟩
  have hlabels := Labels.noNul_text hend h.labels.keys h.labels.values
  simp only [Line.text, List.mem_append, not_or]
  exact ⟨by decide, hplain (plain_signed _), by decide, hplain h.name.2, by decide, hlabels⟩

/-! ## What the handler prints -/

/-- What fits `metric` is printed in full, and a newline after it. -/
theorem format_metric {fmt : String} {args : List CArg} {out : Bytes}
    (hformat : format fmt args = some out) (hlen : out.length < sizeofMetric) (hnoNul : 0 ∉ out) :
    ((snprintf sizeofMetric fmt args).bind fun metric =>
      (cString metric).bind fun str => format "%s\n" [.str str]) = some (out ++ [10]) := by
  simp only [snprintf_of_length_lt hformat hlen, Option.bind_some, cString_append_zero,
    takeWhile_of_noNul hnoNul]
  rfl

set_option maxRecDepth 1024 in
/-- Each format of the switch lays out the line of its event. -/
theorem formatMetric_eq {ev : SyscallEvent} {ty : SyscallEventType} {ls : Labels}
    (hty : SyscallEventType.ofCode ev.type = some ty) (hls : eventLabels ev ty = some ls)
    (microseconds : Int64) :
    ∃ fmt args, formatMetric ev microseconds = snprintf sizeofMetric fmt args ∧
      format fmt args = some (⟨ev.pid, ty.name, ls, microseconds⟩ : Line).text := by
  cases ty <;>
    simp only [eventLabels, Option.bind_eq_bind, Option.bind_eq_some_iff, Option.some.injEq] at hls
  case' execve | openat | chown | umount =>
    obtain ⟨str1, h1, rfl⟩ := hls
    simp only [formatMetric, hty, h1, Option.bind_eq_bind, Option.bind_some]
  case' mount =>
    obtain ⟨str1, h1, str2, h2, str3, h3, rfl⟩ := hls
    simp only [formatMetric, hty, h1, h2, h3, Option.bind_eq_bind, Option.bind_some]
  case' ptrace | read | fork | clone | mprotect | mmap | write | ioctl | setuid | setgid |
      capset | prctl | keyctl =>
    subst hls
    simp only [formatMetric, hty]
  all_goals
    refine ⟨_, _, rfl, ?_⟩
    simp only [Line.text, Labels.text, LabelValue.text, SyscallEventType.name, ← toInt_toInt]
    rw [← List.append_nil (signed microseconds.toInt)]
    -- both sides as character lists, which evaluate to the same list
    repeat rw [ascii_ofList]
    rw [format_ofList]
    rfl

/-- The handler prints the line of an event, and a newline. -/
theorem syscallEventHandler_eq {ev : SyscallEvent} {ty : SyscallEventType} {ls : Labels}
    (hty : SyscallEventType.ofCode ev.type = some ty) (hls : eventLabels ev ty = some ls)
    (microseconds : Int64) :
    syscallEventHandler ev microseconds =
      some ((⟨ev.pid, ty.name, ls, microseconds⟩ : Line).text ++ [10]) := by
  have hfits : (⟨ev.pid, ty.name, ls, microseconds⟩ : Line).Fits :=
    ⟨ty.fits_name, eventLabels_fits hls⟩
  obtain ⟨fmt, args, hmetric, hformat⟩ := formatMetric_eq hty hls microseconds
  rw [syscallEventHandler, hmetric]
  simp only [Option.bind_eq_bind]
  rw [format_metric hformat hfits.length_text_lt hfits.noNul_text]

end EPtracer
