import EPtracer.Syscall.Forgery

/-!
# The transcript of a run

`syscall_tracer` polls the ring buffer until a poll fails, and writes one line
for each event that a poll takes out.  The lines of a run are its transcript.

A transcript has as many newlines as events unless a traced process has put a
newline into one of its strings (`transcript_lines`).  Without these, and
without mounts that imitate their own labels, the transcript can be taken apart
again: it tells the kind, the PID, the labels and the time of every event
(`transcript_tells`).
-/

namespace EPtracer

open CText RingBuffer

/-! ## The loop -/

/-- What a call of `ring_buffer__poll` does: it fails, or passes some records to
the handler, each at its time. -/
inductive Poll where
  | failed (err : Int32) (neg : err < 0)
  | took (records : List (SyscallEvent × Int64))

/-- The records that are handled in the loop of `syscall_tracer`, which ends at
the first poll that fails. -/
def pollLoop : List Poll → List (SyscallEvent × Int64)
  | [] => []
  | .failed _ _ :: _ => []
  | .took records :: polls => records ++ pollLoop polls

/-- What the handler writes for some records, one after the other. -/
def handled : List (SyscallEvent × Int64) → Option Bytes
  | [] => some []
  | (ev, microseconds) :: records => do
      let text ← syscallEventHandler ev microseconds
      let rest ← handled records
      some (text ++ rest)

/-- `syscall_tracer(args)`: what it writes to the standard output.  It ends the
process when it gets no ring buffer. -/
def syscallTracer (ringBufferNew : Bool) (polls : List Poll) : Option Bytes :=
  if !ringBufferNew then some [] else handled (pollLoop polls)

/-! ## Lines of events -/

/-- The line of an event. -/
def eventLine (record : SyscallEvent × Int64) : Option Line := do
  let ty ← SyscallEventType.ofCode record.1.type
  let labels ← eventLabels record.1 ty
  some ⟨record.1.pid, ty.name, labels, record.2⟩

/-- What can be read off a line: the PID, the name of the call, each label with
the text of its value, and the time. -/
def Line.shows (l : Line) : Int32 × String × List (String × Bytes) × Int64 :=
  (l.pid, l.name, l.labels.map fun label => (label.1, label.2.text), l.microseconds)

/-- An event of some call, with a time. -/
def Reported (record : SyscallEvent × Int64) : Prop :=
  ∃ b entry ctx, Submits b entry ctx record.1

/-- No string of the event has a newline. -/
def Unbroken (record : SyscallEvent × Int64) : Prop :=
  ∀ s, some s ∈ eventStrings record.1 → 10 ∉ s

/-- It is no mount that imitates its own labels. -/
def Unspliced (record : SyscallEvent × Int64) : Prop :=
  record.1.type = SyscallEventType.mount.code → MountPlain record.1

theorem Reported.line {record : SyscallEvent × Int64} (h : Reported record) :
    ∃ ty ls, record.1.type = ty.code ∧ eventLabels record.1 ty = some ls ∧
      eventLine record = some ⟨record.1.pid, ty.name, ls, record.2⟩ ∧
      (⟨record.1.pid, ty.name, ls, record.2⟩ : Line).Fits ∧
      syscallEventHandler record.1 record.2 =
        some ((⟨record.1.pid, ty.name, ls, record.2⟩ : Line).text ++ [10]) := by
  obtain ⟨b, entry, ctx, hsub⟩ := h
  obtain ⟨-, ty, -, -, hcode, hlabels⟩ := hsub.labels
  refine ⟨ty, _, hcode, hlabels, ?_, hsub.line_fits hcode record.2,
    hsub.handler_eq hcode record.2⟩
  simp only [eventLine, SyscallEventType.ofCode_of_eq hcode, hlabels, Option.bind_eq_bind,
    Option.bind_some]

theorem unbroken_iff {record : SyscallEvent × Int64} {ty : SyscallEventType} {ls : Labels}
    (hcode : record.1.type = ty.code) (hls : eventLabels record.1 ty = some ls)
    (hfits : (⟨record.1.pid, ty.name, ls, record.2⟩ : Line).Fits) :
    Unbroken record ↔ 10 ∉ (⟨record.1.pid, ty.name, ls, record.2⟩ : Line).text := by
  rw [Line.newline_mem_iff hfits, Unbroken,
    eventStrings_eq (SyscallEventType.ofCode_of_eq hcode) hls]
  simp only [List.mem_map, Option.some.injEq, exists_eq_right, not_exists, not_and]

/-! ## The lines of a run -/

/-- A transcript is made of the lines of its events, each with a newline. -/
theorem handled_eq {records : List (SyscallEvent × Int64)} (h : ∀ r ∈ records, Reported r) :
    ∃ lines : List Line, records.map eventLine = lines.map some ∧
      handled records = some (lines.flatMap fun l => l.text ++ [10]) := by
  induction records with
  | nil => exact ⟨[], rfl, rfl⟩
  | cons r records ih =>
      rw [List.forall_mem_cons] at h
      obtain ⟨lines, hlines, hrest⟩ := ih h.2
      obtain ⟨ty, ls, -, -, hline, -, htext⟩ := h.1.line
      refine ⟨⟨r.1.pid, ty.name, ls, r.2⟩ :: lines, ?_, ?_⟩
      · rw [List.map_cons, List.map_cons, hline, hlines]
      · simp only [handled, htext, hrest, Option.bind_eq_bind, Option.bind_some, List.flatMap_cons]

/-- Each event brings the newlines of its strings and the one at its end. -/
theorem count_newline_handled {records : List (SyscallEvent × Int64)}
    (h : ∀ r ∈ records, Reported r) {text : Bytes} (htext : handled records = some text) :
    records.length ≤ text.count 10 ∧
      (text.count 10 = records.length ↔ ∀ r ∈ records, Unbroken r) := by
  induction records generalizing text with
  | nil =>
      cases htext
      simp
  | cons r records ih =>
      rw [List.forall_mem_cons] at h
      obtain ⟨ty, ls, hcode, hls, -, hfits, hhandler⟩ := h.1.line
      simp only [handled, hhandler, Option.bind_eq_bind, Option.bind_some,
        Option.bind_eq_some_iff, Option.some.injEq] at htext
      obtain ⟨rest, hrest, rfl⟩ := htext
      obtain ⟨hle, hiff⟩ := ih h.2 hrest
      have hbroken := unbroken_iff hcode hls hfits
      rw [← List.count_eq_zero] at hbroken
      simp only [List.count_append, List.length_cons, List.forall_mem_cons, ← hiff, hbroken,
        List.count_singleton_self]
      omega

/-! ## Taking a line apart -/

/-- A line with this name is of this kind. -/
def kindNamed (name : Bytes) : Option SyscallEventType :=
  [.ptrace, .read, .execve, .fork, .clone, .mprotect, .openat, .mmap, .write, .chown, .mount,
    .umount, .ioctl, .setuid, .setgid, .capset, .prctl, .keyctl].find?
    fun ty : SyscallEventType => ascii ty.name = name

theorem kindNamed_name (ty : SyscallEventType) : kindNamed (ascii ty.name) = some ty := by
  cases ty <;> decide +kernel

theorem SyscallEventType.name_injective {ty ty' : SyscallEventType}
    (h : ascii ty.name = ascii ty'.name) : ty = ty' := by
  have hkind := congrArg kindNamed h
  rwa [kindNamed_name, kindNamed_name, Option.some.injEq] at hkind

/-- Of two label texts that are equal, the texts of the values are, and what
follows. -/
theorem Labels.texts_eq {rest rest' : Bytes} (hrest : rest.count 34 = rest'.count 34)
    {ls ls' : Labels} (hal : ls.Aligned ls') :
    (∀ key ∈ ls.map Prod.fst, FitsKey key) → (∀ key ∈ ls'.map Prod.fst, FitsKey key) →
    ls.Unambiguous → ls'.Unambiguous → ls.text rest = ls'.text rest' →
    (ls.map fun label => (label.1, label.2.text)) =
      (ls'.map fun label => (label.1, label.2.text)) ∧ rest = rest' := by
  induction hal with
  | nil => exact fun _ _ _ _ htext => ⟨rfl, htext⟩
  | @number key v v' ls ls' hv hv' hal ih =>
      intro hkeys hkeys' hun hun' htext
      simp only [List.map_cons, List.forall_mem_cons] at hkeys hkeys'
      simp only [Labels.text, List.append_cancel_left_eq] at htext
      have hplain := LabelValue.plain_text hv
      have hplain' := LabelValue.plain_text hv'
      obtain ⟨hvalue, htail⟩ := append_delimiter_inj (fun h => (hplain 34 h).1 rfl)
        (fun h => (hplain' 34 h).1 rfl) htext
      obtain ⟨hlabels, hend⟩ := ih hkeys.2 hkeys'.2 hun.tail hun'.tail htail
      exact ⟨by rw [List.map_cons, List.map_cons, hvalue, hlabels], hend⟩
  | @string key s s' ls ls' hal ih =>
      intro hkeys hkeys' hun hun' htext
      simp only [List.map_cons, List.forall_mem_cons] at hkeys hkeys'
      simp only [Labels.text, List.append_cancel_left_eq, LabelValue.text] at htext
      obtain rfl := Labels.str_eq hrest hal hkeys.2 hkeys'.2 hun hun' htext
      simp only [List.append_cancel_left_eq] at htext
      obtain ⟨hlabels, hend⟩ := ih hkeys.2 hkeys'.2 hun.tail hun'.tail htext
      exact ⟨by rw [List.map_cons, List.map_cons, hlabels], hend⟩

/-- The name is told from the labels. -/
theorem Line.name_eq {l l' : Line} (hfits : l.Fits) (hfits' : l'.Fits) (h : l.text = l'.text) :
    ascii l.name = ascii l'.name := by
  have hclose : ascii "\"" = [34] := by decide
  have hquote {name : String} (hname : FitsKey name) : 34 ∉ ascii name :=
    fun h => (hname.2 34 h).1 rfl
  simp only [Line.text, Line.pid_eq h, List.append_cancel_left_eq, hclose] at h
  exact (append_delimiter_inj (hquote hfits.name) (hquote hfits'.name) h).1

/-- Two events with the same line show the same. -/
theorem Reported.shows_eq {r r' : SyscallEvent × Int64} (h : Reported r) (h' : Reported r')
    (hplain : Unspliced r) (hplain' : Unspliced r') {l l' : Line} (hl : eventLine r = some l)
    (hl' : eventLine r' = some l') (htext : l.text = l'.text) : l.shows = l'.shows := by
  obtain ⟨ty, ls, hcode, hls, hline, hfits, -⟩ := h.line
  obtain ⟨ty', ls', hcode', hls', hline', hfits', -⟩ := h'.line
  rw [hl, Option.some.injEq] at hline
  rw [hl', Option.some.injEq] at hline'
  subst hline hline'
  obtain rfl := SyscallEventType.name_injective (Line.name_eq hfits hfits' htext)
  have hmount {r : SyscallEvent × Int64} (hcode : r.1.type = ty.code)
      (hplain : Unspliced r) : ty = .mount → MountPlain r.1 := by
    rintro rfl
    exact hplain hcode
  have hpid := Line.pid_eq htext
  have hbody : ls.text (ascii "\x7d " ++ signed r.2.toInt) =
      ls'.text (ascii "\x7d " ++ signed r'.2.toInt) := by
    simp only at hpid
    simpa only [Line.text, hpid, List.append_cancel_left_eq] using htext
  have hcount {i j : Int} : (ascii "\x7d " ++ signed i).count 34 =
      (ascii "\x7d " ++ signed j).count 34 := by
    rw [List.count_append, List.count_append, count_quote_of_plain (plain_signed i),
      count_quote_of_plain (plain_signed j)]
  obtain ⟨hlabels, htime⟩ := Labels.texts_eq hcount (eventLabels_aligned hls hls')
    hfits.labels.keys hfits'.labels.keys (eventLabels_unambiguous hls (hmount hcode hplain))
    (eventLabels_unambiguous hls' (hmount hcode' hplain')) hbody
  rw [List.append_cancel_left_eq] at htime
  have hmicro : r.2 = r'.2 := Int64.toInt_inj.mp (signed_injective htime)
  simp only [Line.shows, hlabels, hmicro]
  exact congrArg (·, _) hpid

/-- Transcripts without breaks that are equal show the same, event by event. -/
theorem handled_shows_eq {records records' : List (SyscallEvent × Int64)}
    (h : ∀ r ∈ records, Reported r ∧ Unbroken r ∧ Unspliced r)
    (h' : ∀ r ∈ records', Reported r ∧ Unbroken r ∧ Unspliced r)
    (htext : handled records = handled records') :
    records.map (fun r => (eventLine r).map Line.shows) =
      records'.map fun r => (eventLine r).map Line.shows := by
  induction records generalizing records' with
  | nil =>
      cases records' with
      | nil => rfl
      | cons r' records' =>
          have hle := (count_newline_handled (fun r hr => (h' r hr).1) htext.symm).1
          simp at hle
  | cons r records ih =>
      cases records' with
      | nil =>
          have hle := (count_newline_handled (fun r hr => (h r hr).1) htext).1
          simp at hle
      | cons r' records' =>
          rw [List.forall_mem_cons] at h h'
          obtain ⟨hrep, hunbroken, hplain⟩ := h.1
          obtain ⟨hrep', hunbroken', hplain'⟩ := h'.1
          obtain ⟨ty, ls, hcode, hls, hline, hfits, hhandler⟩ := hrep.line
          obtain ⟨ty', ls', hcode', hls', hline', hfits', hhandler'⟩ := hrep'.line
          obtain ⟨lines, -, hrest⟩ := handled_eq fun r hr => (h.2 r hr).1
          obtain ⟨lines', -, hrest'⟩ := handled_eq fun r hr => (h'.2 r hr).1
          simp only [handled, hhandler, hhandler', hrest, hrest', Option.bind_eq_bind,
            Option.bind_some, Option.some.injEq, List.append_assoc, List.singleton_append] at htext
          rw [unbroken_iff hcode hls hfits] at hunbroken
          rw [unbroken_iff hcode' hls' hfits'] at hunbroken'
          obtain ⟨hfirst, htail⟩ := append_delimiter_inj hunbroken hunbroken' htext
          have hshows := hrep.shows_eq hrep' hplain hplain' hline hline' hfirst
          have hmore := ih h.2 h'.2 (by rw [hrest, hrest', htail])
          rw [List.map_cons, List.map_cons, hline, hline', Option.map_some, Option.map_some,
            hshows, hmore]

/-! ## Transcripts of runs -/

/-- The polls take out what the buffer hands over in the run. -/
def TakesOut (s : TracerState) (polls : List Poll) : Prop :=
  (pollLoop polls).map Prod.fst = s.delivered.map Prod.snd

theorem TakesOut.forall_iff {s : TracerState} {polls : List Poll} (h : TakesOut s polls)
    (P : SyscallEvent → Prop) :
    (∀ r ∈ pollLoop polls, P r.1) ↔ ∀ d ∈ s.delivered, P d.2 := by
  have hmap : (∀ ev ∈ (pollLoop polls).map Prod.fst, P ev) ↔
      ∀ ev ∈ s.delivered.map Prod.snd, P ev := by rw [h]
  rwa [List.forall_mem_map, List.forall_mem_map] at hmap

theorem TakesOut.reported {b : Build} {entry : ProgramName} {cap : Nat} {s : TracerState}
    (h : Reachable cap (sysEnterMultiplexer b entry) s) {polls : List Poll}
    (hpolls : TakesOut s polls) : ∀ r ∈ pollLoop polls, Reported r := by
  refine (hpolls.forall_iff fun ev => ∃ b entry ctx, Submits b entry ctx ev).mpr ?_
  intro d hd
  obtain ⟨inv, -, hsub⟩ := delivered_submits h hd
  exact ⟨b, entry, inv.call, hsub⟩

/-- **The lines of a run.**  The tracer writes a line for each event it was
handed, in their order, with the labels of its call and the PID `callPid` says.
So a transcript has as many lines as events exactly if no string of a traced
process has a newline. -/
theorem transcript_lines (b : Build) (entry : ProgramName) (cap : Nat) (s : TracerState)
    (polls : List Poll) (h : Reachable cap (sysEnterMultiplexer b entry) s)
    (hpolls : TakesOut s polls) :
    ∃ (lines : List Line) (text : Bytes), syscallTracer true polls = some text ∧
      text = lines.flatMap (fun l => l.text ++ [10]) ∧ lines.length = s.delivered.length ∧
      (∀ (k i : Nat) (ev : SyscallEvent) (l : Line), s.delivered[k]? = some (i, ev) →
        lines[k]? = some l → ∃ (inv : TracerCall) (nr : SyscallNr) (ty : SyscallEventType),
          s.calls[i]? = some inv ∧ Selected entry inv.call ∧ b.case inv.call.id = some nr ∧
          nr.eventType = some ty ∧ l.pid = callPid inv.call ty ∧ l.name = ty.name ∧
          l.labels = callLabels inv.call ty) ∧
      (text.count 10 = s.delivered.length ↔
        ∀ d ∈ s.delivered, ∀ str, some str ∈ eventStrings d.2 → 10 ∉ str) := by
  have hrep := hpolls.reported h
  have hlen : (pollLoop polls).length = s.delivered.length := by
    simpa using congrArg List.length hpolls
  obtain ⟨lines, hlines, htext⟩ := handled_eq hrep
  obtain ⟨-, hcount⟩ := count_newline_handled hrep htext
  refine ⟨lines, _, htext, rfl, ?_, ?_, ?_⟩
  · rw [← hlen]
    simpa using (congrArg List.length hlines).symm
  · intro k i ev l hk hl
    obtain ⟨inv, hinv, hsub⟩ := delivered_submits h (List.mem_of_getElem? hk)
    obtain ⟨hsel, -⟩ := hsub.filled
    obtain ⟨nr, ty, hcase, hty, hcode, hlabels⟩ := hsub.labels
    refine ⟨inv, nr, ty, hinv, hsel, hcase, hty, ?_⟩
    have hev := congrArg (·[k]?) hpolls
    simp only [List.getElem?_map, hk, Option.map_some, Option.map_eq_some_iff] at hev
    obtain ⟨r, hr, hrev⟩ := hev
    have hline := congrArg (·[k]?) hlines
    simp only [List.getElem?_map, hr, hl, Option.map_some, Option.some.injEq] at hline
    simp only [eventLine, hrev, SyscallEventType.ofCode_of_eq hcode, hlabels, Option.bind_eq_bind,
      Option.bind_some, Option.some.injEq] at hline
    subst hline
    exact ⟨hsub.pid_eq hcode, rfl, rfl⟩
  · rw [← hlen, hcount]
    exact hpolls.forall_iff fun ev => ∀ str, some str ∈ eventStrings ev → 10 ∉ str

/-- **Transcripts are read back.**  Two runs with the same transcript handed over
events that show the same, one after the other: PID, name, labels and time.  That
is, if no string has a newline and no mount imitates its own labels. -/
theorem transcript_tells (b b' : Build) (entry entry' : ProgramName) (cap cap' : Nat)
    (s s' : TracerState) (polls polls' : List Poll)
    (h : Reachable cap (sysEnterMultiplexer b entry) s)
    (h' : Reachable cap' (sysEnterMultiplexer b' entry') s')
    (hpolls : TakesOut s polls) (hpolls' : TakesOut s' polls')
    (hplain : ∀ r ∈ pollLoop polls, Unbroken r ∧ Unspliced r)
    (hplain' : ∀ r ∈ pollLoop polls', Unbroken r ∧ Unspliced r)
    (htext : syscallTracer true polls = syscallTracer true polls') :
    (pollLoop polls).map (fun r => (eventLine r).map Line.shows) =
      (pollLoop polls').map fun r => (eventLine r).map Line.shows :=
  handled_shows_eq (fun r hr => ⟨hpolls.reported h r hr, hplain r hr⟩)
    (fun r hr => ⟨hpolls'.reported h' r hr, hplain' r hr⟩) htext

/-- The polls of a run of the shell that ends with an interrupted poll. -/
def shellPolls : List Poll :=
  [.took [], .took (shellRead.delivered.map fun d => (d.2, 5)), .failed (-4) (by decide)]

theorem shellPolls_takesOut : TakesOut shellRead shellPolls := by
  simp [TakesOut, shellPolls, pollLoop, Function.comp_def]

/-- The one event of the run. -/
theorem shellRead_delivered : ∃ ev, shellRead.delivered = [(0, ev)] ∧
    ev.type = SyscallEventType.read.code := by
  have hlen : shellRead.delivered.length = 1 := rfl
  obtain ⟨⟨i, ev⟩, hone⟩ := List.length_eq_one_iff.mp hlen
  have hmap : shellRead.delivered.map (fun d => (d.1, d.2.type)) =
      [(0, SyscallEventType.read.code)] := rfl
  rw [hone, List.map_singleton, List.singleton_inj, Prod.mk.injEq] at hmap
  obtain ⟨rfl, htype⟩ := hmap
  exact ⟨ev, hone, htype⟩

theorem transcript_lines_read :
    ∃ (l : Line) (text : Bytes), syscallTracer true shellPolls = some text ∧
      text = l.text ++ [10] ∧ l.pid = 7 ∧ l.name = "read" ∧
      l.labels = callLabels (shellCall 0 fun _ => 0) .read ∧ text.count 10 = 1 := by
  obtain ⟨lines, text, htext, heq, hlen, hlines, hcount⟩ := transcript_lines buildX86 shellName
    syscallRbRecords shellRead shellPolls (State.run_reachable _) shellPolls_takesOut
  obtain ⟨ev, hone, htype⟩ := shellRead_delivered
  rw [hone] at hlen hlines hcount
  obtain ⟨l, rfl⟩ := List.length_eq_one_iff.mp hlen
  obtain ⟨inv, nr, ty, hinv, -, hcase, hty, hpid, hname, hlabels⟩ := hlines 0 0 ev l rfl rfl
  have hcall : inv.call = shellCall 0 fun _ => 0 := by
    have hcalls : shellRead.calls[0]?.map Invocation.call = some (shellCall 0 fun _ => 0) := rfl
    rwa [hinv, Option.map_some, Option.some.injEq] at hcalls
  rw [hcall] at hcase hpid hlabels
  cases hcase
  cases hty
  refine ⟨l, text, htext, by rw [heq, List.flatMap_singleton], hpid, hname, hlabels,
    hcount.mpr ?_⟩
  intro d hd str hstr
  rw [List.mem_singleton.mp hd, eventStrings, htype] at hstr
  exact absurd hstr (by simp)

theorem shellPolls_plain : ∀ r ∈ pollLoop shellPolls, Unbroken r ∧ Unspliced r := by
  have hread : ∀ d ∈ shellRead.delivered, d.2.type = SyscallEventType.read.code := by
    obtain ⟨ev, hone, htype⟩ := shellRead_delivered
    rw [hone]
    exact List.forall_mem_singleton.mpr htype
  have hall := (shellPolls_takesOut.forall_iff fun ev => ev.type = _).mpr hread
  intro r hr
  have htype := hall r hr
  constructor
  · intro str hstr
    simp only [eventStrings, htype, SyscallEventType.ofCode_code, List.not_mem_nil] at hstr
  · intro hmount
    exact absurd (htype.symm.trans hmount) (by decide)

theorem transcript_tells_read :
    (pollLoop shellPolls).map (fun r => (eventLine r).map Line.shows) =
      (pollLoop (shellPolls.take 2)).map fun r => (eventLine r).map Line.shows :=
  transcript_tells buildX86 buildX86 shellName shellName syscallRbRecords syscallRbRecords
    shellRead shellRead shellPolls (shellPolls.take 2) (State.run_reachable _)
    (State.run_reachable _) shellPolls_takesOut shellPolls_takesOut shellPolls_plain
    shellPolls_plain rfl

end EPtracer
