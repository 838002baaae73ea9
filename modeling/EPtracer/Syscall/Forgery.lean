import EPtracer.Lib.Delimited
import EPtracer.Syscall.Labels

/-!
# What a line can be taken for

The strings of an event are the traced process's own, and the handler puts them
between quotes as they are.  So a string may hold a newline, and the line of its
event is then more than one.  A string may hold a quote as well, and whether
the line still tells where the string ends depends on what stands after it.

The text of a line is made of labels.  `Labels.strings_eq` takes two such texts
apart from the left.  A number has no quote in it.  The last string is followed
by a known number of quotes.  Only a string with another string after it can be
taken for something else, when it contains the text in between up to the key of
the next label (`Splices`).  That is the source or the target of a `mount`.
-/

namespace EPtracer

open CText RingBuffer

/-! ## Strings and numbers -/

/-- The value is a string of the traced process. -/
def LabelValue.isStr : LabelValue → Bool
  | .str _ => true
  | _ => false

theorem LabelValue.plain_text {v : LabelValue} (h : v.isStr = false) : Plain v.text := by
  cases v with
  | int w =>
      rw [text]
      exact plain_signed _
  | ulong w => exact plain_decimal _
  | hex w => exact plain_hex _
  | ptr w => exact plain_pointer w
  | str s => simp [isStr] at h

/-- The values of the string labels, in order. -/
def Labels.strings : Labels → List Bytes
  | [] => []
  | (_, .str s) :: ls => s :: Labels.strings ls
  | _ :: ls => Labels.strings ls

/-- There is a string label. -/
def Labels.hasStr (ls : Labels) : Bool := ls.any fun label => label.2.isStr

theorem Labels.strings_of_number {key : String} {v : LabelValue} (h : v.isStr = false)
    (ls : Labels) : Labels.strings ((key, v) :: ls) = ls.strings := by
  cases v <;> first | rfl | simp [LabelValue.isStr] at h

theorem LabelValue.exists_str {v : LabelValue} (h : v.isStr = true) : ∃ s, v = .str s := by
  cases v <;> simp_all [isStr]

/-! ## Newlines -/

theorem Labels.newline_mem_iff (rest : Bytes) : ∀ {ls : Labels},
    (∀ key ∈ ls.map Prod.fst, FitsKey key) →
    (10 ∈ ls.text rest ↔ (∃ s ∈ ls.strings, 10 ∈ s) ∨ 10 ∈ rest)
  | [], _ => by simp [Labels.text, Labels.strings]
  | (key, value) :: ls, hkeys => by
      simp only [List.map_cons, List.forall_mem_cons] at hkeys
      have ih := Labels.newline_mem_iff rest hkeys.2
      have hkey : 10 ∉ ascii key := fun h => (hkeys.1.2 10 h).2.1 rfl
      have hcomma : 10 ∉ ascii ", " := by decide
      have hopen : 10 ∉ ascii "=\"" := by decide
      have hclose : 10 ∉ ascii "\"" := by decide
      simp only [Labels.text, List.mem_append, hcomma, hkey, hopen, hclose, ih, false_or]
      cases hv : value.isStr with
      | false =>
          have hvalue : 10 ∉ value.text := fun h => (LabelValue.plain_text hv 10 h).2.1 rfl
          simp [Labels.strings_of_number hv, hvalue]
      | true =>
          obtain ⟨s, rfl⟩ := LabelValue.exists_str hv
          simp [LabelValue.text, Labels.strings, or_assoc]

/-- A line breaks exactly where one of its strings does. -/
theorem Line.newline_mem_iff {l : Line} (h : l.Fits) :
    10 ∈ l.text ↔ ∃ s ∈ l.labels.strings, 10 ∈ s := by
  have hplain {b : Bytes} (hb : Plain b) : 10 ∉ b := fun h => (hb 10 h).2.1 rfl
  have hstart : 10 ∉ ascii "eptracer\x7bpid=\"" := by decide
  have hsyscall : 10 ∉ ascii "\", syscall=\"" := by decide
  have hclose : 10 ∉ ascii "\"" := by decide
  have hend : 10 ∉ ascii "\x7d " := by decide
  simp [Line.text, List.mem_append, Labels.newline_mem_iff _ h.labels.keys, hstart, hsyscall,
    hclose, hend, hplain (plain_signed _), hplain h.name.2]

/-! ## Taking labels apart -/

/-- The string contains what stands between a string and the value of the next
label. -/
def Splices (key : String) (s : Bytes) : Prop :=
  (ascii "\", " ++ (ascii key ++ ascii "=")) <:+: s

/-- No string but the last imitates the label that follows it. -/
def Labels.Unambiguous : Labels → Prop
  | (_, .str s) :: (key, value) :: ls =>
      (Labels.hasStr ((key, value) :: ls) = true → ¬ Splices key s) ∧
        Labels.Unambiguous ((key, value) :: ls)
  | _ :: ls => Labels.Unambiguous ls
  | [] => True

theorem Labels.Unambiguous.tail {label : String × LabelValue} {ls : Labels}
    (h : Labels.Unambiguous (label :: ls)) : ls.Unambiguous := by
  obtain ⟨key, value⟩ := label
  cases value with
  | str s =>
      cases ls with
      | nil => trivial
      | cons => exact h.2
  | int | ulong | hex | ptr => exact h

/-- The same keys, with strings in the same places. -/
inductive Labels.Aligned : Labels → Labels → Prop where
  | nil : Aligned [] []
  | number {key : String} {v v' : LabelValue} {ls ls' : Labels} :
      v.isStr = false → v'.isStr = false → Aligned ls ls' →
      Aligned ((key, v) :: ls) ((key, v') :: ls')
  | string {key : String} {s s' : Bytes} {ls ls' : Labels} :
      Aligned ls ls' → Aligned ((key, .str s) :: ls) ((key, .str s') :: ls')

theorem Labels.Aligned.length_eq {ls ls' : Labels} (h : ls.Aligned ls') :
    ls.length = ls'.length := by
  induction h with
  | nil => rfl
  | number _ _ _ ih => simp [ih]
  | string _ ih => simp [ih]

theorem Labels.Aligned.hasStr_eq {ls ls' : Labels} (h : ls.Aligned ls') :
    ls.hasStr = ls'.hasStr := by
  induction h with
  | nil => rfl
  | number hv hv' _ ih =>
      simp only [Labels.hasStr, List.any_cons, hv, hv', Bool.false_or] at ih ⊢
      exact ih
  | string _ _ => simp [Labels.hasStr, LabelValue.isStr]

theorem count_quote_of_plain {b : Bytes} (h : Plain b) : b.count 34 = 0 :=
  List.count_eq_zero.mpr fun hmem => (h 34 hmem).1 rfl

theorem Labels.count_quote (rest : Bytes) : ∀ {ls : Labels},
    (∀ key ∈ ls.map Prod.fst, FitsKey key) → ls.hasStr = false →
    (ls.text rest).count 34 = 2 * ls.length + rest.count 34
  | [], _, _ => by simp [Labels.text]
  | (key, value) :: ls, hkeys, hno => by
      simp only [List.map_cons, List.forall_mem_cons] at hkeys
      simp only [Labels.hasStr, List.any_cons, Bool.or_eq_false_iff] at hno
      have ih := Labels.count_quote rest hkeys.2 hno.2
      have hkey := count_quote_of_plain hkeys.1.2
      have hvalue := count_quote_of_plain (LabelValue.plain_text hno.1)
      have hcomma : (ascii ", ").count 34 = 0 := by decide
      have hopen : (ascii "=\"").count 34 = 1 := by decide
      have hclose : (ascii "\"").count 34 = 1 := by decide
      simp only [Labels.text, List.count_append, hcomma, hkey, hopen, hclose, hvalue, ih,
        List.length_cons]
      omega

/-- A string with another label behind it, with the word between them set
apart. -/
theorem Labels.text_after_str (s rest : Bytes) (key : String) (value : LabelValue) (ls : Labels) :
    s ++ (ascii "\"" ++ Labels.text ((key, value) :: ls) rest) =
      s ++ (34 :: (ascii ", " ++ (ascii key ++ ascii "=")) ++
        (34 :: (value.text ++ (ascii "\"" ++ ls.text rest)))) := by
  have hopen : ascii "=\"" = ascii "=" ++ [34] := by decide
  have hclose : ascii "\"" = [34] := by decide
  simp [Labels.text, hopen, hclose]

/-- A string is told from what follows it. -/
theorem Labels.str_eq {rest rest' s s' : Bytes} {key : String} {ls ls' : Labels}
    (hrest : rest.count 34 = rest'.count 34) (hal : ls.Aligned ls')
    (hkeys : ∀ key ∈ ls.map Prod.fst, FitsKey key)
    (hkeys' : ∀ key ∈ ls'.map Prod.fst, FitsKey key)
    (hun : Labels.Unambiguous ((key, .str s) :: ls))
    (hun' : Labels.Unambiguous ((key, .str s') :: ls'))
    (htext : s ++ (ascii "\"" ++ ls.text rest) = s' ++ (ascii "\"" ++ ls'.text rest')) :
    s = s' := by
  cases hmore : ls.hasStr with
  | false =>
      have hmore' := hal.hasStr_eq.symm.trans hmore
      have hcount : (ls.text rest).count 34 = (ls'.text rest').count 34 := by
        rw [Labels.count_quote rest hkeys hmore, Labels.count_quote rest' hkeys' hmore', hrest,
          hal.length_eq]
      exact (append_count_inj hcount htext).1
  | true =>
      have hmore' := hal.hasStr_eq.symm.trans hmore
      have hnext {key : String} (hkey : FitsKey key) :
          34 ∉ ascii ", " ++ (ascii key ++ ascii "=") := by
        simp only [List.mem_append, not_or]
        exact ⟨by decide, fun h => (hkey.2 34 h).1 rfl, by decide⟩
      cases hal with
      | nil => simp [Labels.hasStr] at hmore
      | number _ _ _ =>
          rw [Labels.text_after_str, Labels.text_after_str] at htext
          exact (append_word_inj (hnext (hkeys _ (by simp))) (hun.1 hmore) (hun'.1 hmore') htext).1
      | string _ =>
          rw [Labels.text_after_str, Labels.text_after_str] at htext
          exact (append_word_inj (hnext (hkeys _ (by simp))) (hun.1 hmore) (hun'.1 hmore') htext).1

/-- Of two label texts that are equal, the strings are. -/
theorem Labels.strings_eq {rest rest' : Bytes} (hrest : rest.count 34 = rest'.count 34)
    {ls ls' : Labels} (hal : ls.Aligned ls') :
    (∀ key ∈ ls.map Prod.fst, FitsKey key) → (∀ key ∈ ls'.map Prod.fst, FitsKey key) →
    ls.Unambiguous → ls'.Unambiguous → ls.text rest = ls'.text rest' →
    ls.strings = ls'.strings := by
  induction hal with
  | nil => exact fun _ _ _ _ _ => rfl
  | @number key v v' ls ls' hv hv' hal ih =>
      intro hkeys hkeys' hun hun' htext
      simp only [List.map_cons, List.forall_mem_cons] at hkeys hkeys'
      simp only [Labels.text, List.append_cancel_left_eq] at htext
      have hplain := LabelValue.plain_text hv
      have hplain' := LabelValue.plain_text hv'
      have htail : ls.text rest = ls'.text rest' :=
        (append_delimiter_inj (fun h => (hplain 34 h).1 rfl) (fun h => (hplain' 34 h).1 rfl)
          htext).2
      rw [Labels.strings_of_number hv, Labels.strings_of_number hv']
      exact ih hkeys.2 hkeys'.2 hun.tail hun'.tail htail
  | @string key s s' ls ls' hal ih =>
      intro hkeys hkeys' hun hun' htext
      simp only [List.map_cons, List.forall_mem_cons] at hkeys hkeys'
      simp only [Labels.text, List.append_cancel_left_eq, LabelValue.text] at htext
      obtain rfl := Labels.str_eq hrest hal hkeys.2 hkeys'.2 hun hun' htext
      simp only [List.append_cancel_left_eq] at htext
      simp only [Labels.strings, List.cons.injEq, true_and]
      exact ih hkeys.2 hkeys'.2 hun.tail hun'.tail htext

/-! ## Taking lines apart -/

theorem Line.pid_eq {l l' : Line} (h : l.text = l'.text) :
    l.pid = l'.pid := by
  have hsyscall : ascii "\", syscall=\"" = 34 :: ascii ", syscall=\"" := by decide
  have hquote {i : Int} : 34 ∉ signed i := fun h => (plain_signed i 34 h).1 rfl
  simp only [Line.text, List.append_cancel_left_eq, hsyscall, List.cons_append] at h
  exact Int32.toInt_inj.mp (signed_injective (append_delimiter_inj hquote hquote h).1)

theorem Line.strings_eq {l l' : Line} (hfits : l.Fits) (hfits' : l'.Fits)
    (hname : l.name = l'.name) (htime : l.microseconds = l'.microseconds)
    (hal : l.labels.Aligned l'.labels) (hun : l.labels.Unambiguous)
    (hun' : l'.labels.Unambiguous) (h : l.text = l'.text) :
    l.labels.strings = l'.labels.strings := by
  have hpid := Line.pid_eq h
  simp only [Line.text, hpid, hname, htime, List.append_cancel_left_eq] at h
  exact Labels.strings_eq rfl hal hfits.labels.keys hfits'.labels.keys hun hun' h

/-! ## Events -/

/-- The strings an event has for its type. -/
def eventStrings (ev : SyscallEvent) : List (Option Bytes) :=
  match SyscallEventType.ofCode ev.type with
  | some .execve | some .openat | some .chown | some .umount => [cString ev.str1.bytes]
  | some .mount => [cString ev.str1.bytes, cString ev.str2.bytes, cString ev.str3.bytes]
  | _ => []

/-- Neither the source nor the target of a mount imitates the next label. -/
def MountPlain (ev : SyscallEvent) : Prop :=
  (∀ source, cString ev.str1.bytes = some source → ¬ Splices "target" source) ∧
    ∀ target, cString ev.str2.bytes = some target → ¬ Splices "fstype" target

theorem eventStrings_eq {ev : SyscallEvent} {ty : SyscallEventType} {ls : Labels}
    (hty : SyscallEventType.ofCode ev.type = some ty) (hls : eventLabels ev ty = some ls) :
    eventStrings ev = ls.strings.map some := by
  cases ty <;>
    simp only [eventLabels, Option.bind_eq_bind, Option.bind_eq_some_iff, Option.some.injEq] at hls
  case execve | openat | chown | umount =>
    obtain ⟨str1, h1, rfl⟩ := hls
    simp [eventStrings, hty, h1, Labels.strings]
  case mount =>
    obtain ⟨str1, h1, str2, h2, str3, h3, rfl⟩ := hls
    simp [eventStrings, hty, h1, h2, h3, Labels.strings]
  all_goals
    subst hls
    simp [eventStrings, hty, Labels.strings]

theorem eventLabels_aligned {ev ev' : SyscallEvent} {ty : SyscallEventType} {ls ls' : Labels}
    (hls : eventLabels ev ty = some ls) (hls' : eventLabels ev' ty = some ls') :
    ls.Aligned ls' := by
  cases ty <;>
    simp only [eventLabels, Option.bind_eq_bind, Option.bind_eq_some_iff, Option.some.injEq]
      at hls hls'
  case execve | openat | chown | umount =>
    obtain ⟨str1, -, rfl⟩ := hls
    obtain ⟨str1', -, rfl⟩ := hls'
    repeat first | exact .nil | refine .number rfl rfl ?_ | refine .string ?_
  case mount =>
    obtain ⟨str1, -, str2, -, str3, -, rfl⟩ := hls
    obtain ⟨str1', -, str2', -, str3', -, rfl⟩ := hls'
    repeat first | exact .nil | refine .number rfl rfl ?_ | refine .string ?_
  all_goals
    subst hls hls'
    repeat first | exact .nil | refine .number rfl rfl ?_

theorem eventLabels_unambiguous {ev : SyscallEvent} {ty : SyscallEventType} {ls : Labels}
    (hls : eventLabels ev ty = some ls) (hmount : ty = .mount → MountPlain ev) :
    ls.Unambiguous := by
  cases ty <;>
    simp only [eventLabels, Option.bind_eq_bind, Option.bind_eq_some_iff, Option.some.injEq] at hls
  case execve | openat | chown | umount =>
    obtain ⟨str1, -, rfl⟩ := hls
    simp [Labels.Unambiguous, Labels.hasStr, LabelValue.isStr]
  case mount =>
    obtain ⟨str1, h1, str2, h2, str3, -, rfl⟩ := hls
    have hplain := hmount rfl
    simp [Labels.Unambiguous, Labels.hasStr, LabelValue.isStr, hplain.1 _ h1, hplain.2 _ h2]
  all_goals
    subst hls
    simp [Labels.Unambiguous]

/-! ## Three calls -/

/-- A memory of pages of 128 bytes, each with a string. -/
def pageMem (pages : List Bytes) : UserMem := fun addr =>
  some ((pages.getD (addr.toNat / 128) []).getD (addr.toNat % 128) 0)

/-- A call of the shell whose arguments point to the pages. -/
def shellCallOn (id : Int64) (pages : List Bytes) : SysEnter :=
  { shellCall id fun i => 128 * UInt64.ofNat i.val with mem := pageMem pages }

/-- The shell executes a program with a newline in its name. -/
def newlineCall : SysEnter := shellCallOn 59 [ascii "a\nb"]

/-- The shell mounts `a`, on a target that imitates a label. -/
def targetCall : SysEnter := shellCallOn 165 [ascii "a", ascii "b\", target=\"c", ascii "d"]

/-- The shell mounts a source that imitates a label, on `c`. -/
def sourceCall : SysEnter := shellCallOn 165 [ascii "a\", target=\"b", ascii "c", ascii "d"]

theorem newlineCall_labels :
    callLabels newlineCall .execve =
      [("filename", .str (ascii "a\nb")), ("argv", .ptr 128), ("envp", .ptr 256)] := by
  decide +kernel

theorem targetCall_labels :
    callLabels targetCall .mount =
      [("source", .str (ascii "a")), ("target", .str (ascii "b\", target=\"c")),
        ("fstype", .str (ascii "d")), ("flags", .hex 384), ("data", .ptr 512)] := by
  decide +kernel

theorem sourceCall_labels :
    callLabels sourceCall .mount =
      [("source", .str (ascii "a\", target=\"b")), ("target", .str (ascii "c")),
        ("fstype", .str (ascii "d")), ("flags", .hex 384), ("data", .ptr 512)] := by
  decide +kernel

theorem submits_execve {ctx : SysEnter} (hsel : Selected shellName ctx)
    (hcase : buildX86.case ctx.id = some .nrExecve)
    (hfill : (fill (tracedPid shellName ctx) ctx .nrExecve blankEvent).isSome) :
    ∃ ev, Submits buildX86 shellName ctx ev ∧ ev.type = SyscallEventType.execve.code := by
  obtain ⟨ev, hfill⟩ := Option.isSome_iff_exists.mp hfill
  obtain ⟨ty, hty, hcode⟩ := fill_type hfill
  cases hty
  exact ⟨ev, submits_of_fill .nrExecve blankEvent hsel
    (reserves_of_case rfl hcase (by decide)) hfill, hcode⟩

theorem newlineCall_submits :
    ∃ ev, Submits buildX86 shellName newlineCall ev ∧ ev.type = SyscallEventType.execve.code :=
  submits_execve (by decide) rfl (by decide +kernel)

/-! ## What a line tells -/

/-- The handler prints one line of an event unless one of its strings breaks it,
and the lines of two events of one type tell their PIDs apart, and their strings
as well unless a mount imitates its own labels. -/
theorem line_tells_event (b b' : Build) (entry entry' : ProgramName) (ctx ctx' : SysEnter)
    (ev ev' : SyscallEvent) (microseconds : Int64) (h : Submits b entry ctx ev)
    (h' : Submits b' entry' ctx' ev') :
    (∃ out, syscallEventHandler ev microseconds = some (out ++ [10]) ∧
      (10 ∈ out ↔ ∃ s, some s ∈ eventStrings ev ∧ 10 ∈ s)) ∧
    (ev.type = ev'.type →
      syscallEventHandler ev microseconds = syscallEventHandler ev' microseconds →
      ev.pid = ev'.pid ∧
      ((ev.type = SyscallEventType.mount.code → MountPlain ev ∧ MountPlain ev') →
        eventStrings ev = eventStrings ev')) := by
  obtain ⟨-, ty, -, -, hcode, hlabels⟩ := h.labels
  obtain ⟨-, ty', -, -, hcode', hlabels'⟩ := h'.labels
  have hof := SyscallEventType.ofCode_of_eq hcode
  have hof' := SyscallEventType.ofCode_of_eq hcode'
  have hfits := h.line_fits hcode microseconds
  have hfits' := h'.line_fits hcode' microseconds
  rw [h.handler_eq hcode, h'.handler_eq hcode']
  constructor
  · refine ⟨_, rfl, ?_⟩
    rw [Line.newline_mem_iff hfits, eventStrings_eq hof hlabels]
    simp
  · intro htype heq
    obtain rfl : ty = ty' := SyscallEventType.code_injective (by rw [← hcode, ← hcode', htype])
    rw [Option.some.injEq, List.append_cancel_right_eq] at heq
    refine ⟨Line.pid_eq heq, fun hmount => ?_⟩
    have hplain : ty = .mount → MountPlain ev ∧ MountPlain ev' := by
      rintro rfl
      exact hmount hcode
    rw [eventStrings_eq hof hlabels, eventStrings_eq hof' hlabels',
      Line.strings_eq hfits hfits' rfl rfl (eventLabels_aligned hlabels hlabels')
        (eventLabels_unambiguous hlabels fun hty => (hplain hty).1)
        (eventLabels_unambiguous hlabels' fun hty => (hplain hty).2) heq]

/-- The shell executes another program. -/
def plainCall : SysEnter := shellCallOn 59 [ascii "ab"]

theorem plainCall_labels :
    callLabels plainCall .execve =
      [("filename", .str (ascii "ab")), ("argv", .ptr 128), ("envp", .ptr 256)] := by
  decide +kernel

theorem plainCall_submits :
    ∃ ev, Submits buildX86 shellName plainCall ev ∧ ev.type = SyscallEventType.execve.code :=
  submits_execve (by decide) rfl (by decide +kernel)

/-- One of two programs breaks its line, the other does not, and their lines
differ. -/
theorem line_tells_event_newline :
    ∃ ev ev', Submits buildX86 shellName newlineCall ev ∧
      Submits buildX86 shellName plainCall ev' ∧
      (∃ out, syscallEventHandler ev 0 = some (out ++ [10]) ∧ 10 ∈ out) ∧
      (∃ out, syscallEventHandler ev' 0 = some (out ++ [10]) ∧ 10 ∉ out) ∧
      syscallEventHandler ev 0 ≠ syscallEventHandler ev' 0 := by
  obtain ⟨ev, hsub, hcode⟩ := newlineCall_submits
  obtain ⟨ev', hsub', hcode'⟩ := plainCall_submits
  obtain ⟨⟨out, hout, hiff⟩, htells⟩ := line_tells_event buildX86 buildX86 shellName shellName
    newlineCall plainCall ev ev' 0 hsub hsub'
  obtain ⟨⟨out', hout', hiff'⟩, -⟩ := line_tells_event buildX86 buildX86 shellName shellName
    plainCall newlineCall ev' ev 0 hsub' hsub
  have hstrings : eventStrings ev = [some (ascii "a\nb")] := by
    rw [eventStrings_eq (SyscallEventType.ofCode_of_eq hcode) (hsub.labels_of_type hcode),
      newlineCall_labels]
    rfl
  have hstrings' : eventStrings ev' = [some (ascii "ab")] := by
    rw [eventStrings_eq (SyscallEventType.ofCode_of_eq hcode') (hsub'.labels_of_type hcode'),
      plainCall_labels]
    rfl
  refine ⟨ev, ev', hsub, hsub', ⟨out, hout, ?_⟩, ⟨out', hout', ?_⟩, fun heq => ?_⟩
  · exact hiff.mpr ⟨ascii "a\nb", by simp [hstrings], by decide⟩
  · rw [hiff', hstrings']
    simp only [List.mem_singleton, Option.some.injEq]
    rintro ⟨s, rfl, hs⟩
    exact absurd hs (by decide)
  · have hmount : ev.type ≠ SyscallEventType.mount.code := by
      rw [hcode]
      decide
    have hsame := (htells (hcode.trans hcode'.symm) heq).2 (absurd · hmount)
    rw [hstrings, hstrings'] at hsame
    exact absurd hsame (by decide)

/-- A newline in a file name makes two lines of one, and two mounts of different
sources print the same line. -/
theorem lines_forgeable :
    (¬ ∀ (b : Build) (entry : ProgramName) (ctx : SysEnter) (ev : SyscallEvent)
      (microseconds : Int64), Submits b entry ctx ev →
      ∃ out, syscallEventHandler ev microseconds = some (out ++ [10]) ∧ 10 ∉ out) ∧
    (¬ ∀ (b : Build) (entry : ProgramName) (ctx ctx' : SysEnter) (ev ev' : SyscallEvent)
      (microseconds : Int64), Submits b entry ctx ev → Submits b entry ctx' ev' →
      ev.type = ev'.type →
      syscallEventHandler ev microseconds = syscallEventHandler ev' microseconds →
      ev.pid = ev'.pid ∧ eventStrings ev = eventStrings ev') := by
  constructor
  · intro h
    obtain ⟨ev, hsub, hcode⟩ := newlineCall_submits
    obtain ⟨out, hout, hno⟩ := h _ _ _ ev 0 hsub
    rw [hsub.handler_eq hcode, Option.some.injEq, List.append_cancel_right_eq] at hout
    rw [← hout, Line.newline_mem_iff (hsub.line_fits hcode 0), newlineCall_labels] at hno
    exact hno ⟨ascii "a\nb", by simp [Labels.strings], by decide⟩
  · intro h
    obtain ⟨ev, hfill⟩ : ∃ ev, fill (tracedPid shellName targetCall) targetCall .nrMount
        blankEvent = some ev := ⟨_, rfl⟩
    obtain ⟨ev', hfill'⟩ : ∃ ev', fill (tracedPid shellName sourceCall) sourceCall .nrMount
        blankEvent = some ev' := ⟨_, rfl⟩
    have hsub : Submits buildX86 shellName targetCall ev :=
      submits_of_fill .nrMount blankEvent (by decide)
        (reserves_of_case rfl (by decide) (by decide)) hfill
    have hsub' : Submits buildX86 shellName sourceCall ev' :=
      submits_of_fill .nrMount blankEvent (by decide)
        (reserves_of_case rfl (by decide) (by decide)) hfill'
    obtain ⟨ty, hty, hcode⟩ := fill_type hfill
    obtain ⟨ty', hty', hcode'⟩ := fill_type hfill'
    cases hty
    cases hty'
    have hpid : ev.pid = ev'.pid := by
      cases hfill
      cases hfill'
      rfl
    have hstrings := (h _ _ _ _ ev ev' 0 hsub hsub' (hcode.trans hcode'.symm) ?_).2
    · rw [eventStrings_eq (SyscallEventType.ofCode_of_eq hcode) (hsub.labels_of_type hcode),
        eventStrings_eq (SyscallEventType.ofCode_of_eq hcode') (hsub'.labels_of_type hcode'),
        targetCall_labels, sourceCall_labels] at hstrings
      exact absurd hstrings (by decide)
    · rw [hsub.handler_eq hcode, hsub'.handler_eq hcode', hpid, targetCall_labels,
        sourceCall_labels]
      rfl

end EPtracer
