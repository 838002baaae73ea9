import EPtracer.Lifecycle.Stages

/-!
# The life of the process

The contracts hold in every state of the process, whatever the calls return,
however the threads interleave and whenever SIGINT comes (`lawful`).  What `main`
relies on follows from what it guarantees: as long as it has created no thread,
all of the log is its own (`before_eq_own`).

* The programs are attached when what is to be traced is stored, and the tracers
  run when they are attached (`lifecycle_order`).
* The status is 0, unless one of the first calls fails (`exit_status`).
* The object is freed with a pointer that was read before anyone cleared `skel`.
  Nothing but SIGINT frees it twice (`skeleton_lifetime`).
-/

namespace EPtracer

open CText Procedure Process Trace

variable {s : EptracerState}

/-! ## The contracts hold -/

/-- Only `main` stores the object. -/
theorem publishes_guar {t : Thread} {b : Bool} {h : History eptracerCalls} {e : EptracerEvent}
    (hguar : (contracts t b).guar h e) (hpublishes : Publishes e) : t = .main ∧ b = false := by
  obtain ⟨c, a⟩ := e
  obtain ⟨obj, rfl⟩ := hpublishes
  cases b with
  | true => cases t <;> exact absurd hguar.1 id
  | false =>
      cases t with
      | main => exact ⟨rfl, rfl⟩
      | stackTracer | syscallTracer => exact absurd hguar id

theorem Kept.guar (hk : Kept contracts s) {x : EptracerEntry} (hx : x ∈ s.log) :
    ∃ h, (contracts x.thread x.handling).guar h x.event := by
  obtain ⟨before, after, hlog⟩ := List.append_of_mem hx
  exact ⟨_, hk.calls before x after hlog⟩

theorem startedBy_creates {e : EptracerEvent} {u : Thread} {body : EptracerProc Unit}
    (h : eptracer.starts e = some (u, body)) : Creates e := by
  obtain ⟨c, a⟩ := e
  cases c with
  | pthreadCreate start => exact ⟨start, rfl⟩
  | _ => cases h

/-- Without a thread that it has created, `main` is the only one in the log. -/
theorem own_main_eq {log : List EptracerEntry} (hlog : ∀ y ∈ log, y ∈ s.log)
    (hk : Kept contracts s)
    (hthreads : ∀ y ∈ log, y.thread = .main ∨ ∃ z ∈ log, Creates z.event)
    (hhandling : ∀ y ∈ log, y.thread = .main → y.handling = false)
    (halone : Alone (own log .main false)) : own log .main false = log.map Entry.event := by
  refine own_eq_map fun y hy => ?_
  have hmain : y.thread = .main := by
    refine (hthreads y hy).resolve_right ?_
    rintro ⟨z, hz, hcreates⟩
    obtain ⟨h, hguar⟩ := Kept.guar hk (hlog z hz)
    obtain ⟨hthread, hhandler⟩ := creates_guar hguar hcreates
    refine halone z.event (mem_own.mpr ?_) hcreates
    rw [← hthread, ← hhandler]
    exact hz
  exact ⟨hmain, hhandling y hy hmain⟩

theorem before_eq_own (hw : WellFormed eptracer s) (hk : Kept contracts s)
    {before after : List EptracerEntry} {x : EptracerEntry} (hlog : s.log = before ++ x :: after)
    (hx : x.thread = .main ∧ x.handling = false) (halone : Alone (own before .main false)) :
    own before .main false = before.map Entry.event := by
  refine own_main_eq (fun y hy => ?_) hk (fun y hy => ?_) (fun y hy hthread => ?_) halone
  · rw [hlog]
    exact List.mem_append_left _ hy
  · obtain ⟨l₁, l₂, rfl⟩ := List.append_of_mem hy
    refine (hw.calls l₁ y (l₂ ++ x :: after) (by simp [hlog])).2.1.imp_right ?_
    rintro ⟨z, hz, body, hstarts⟩
    exact ⟨z, List.mem_append_left _ hz, startedBy_creates hstarts⟩
  · have hpair := hw.suspended
    rw [hlog] at hpair
    refine Bool.eq_false_iff.mpr fun hhandler => ?_
    have hxh := (List.pairwise_append.mp hpair).2.2 y hy x List.mem_cons_self
      (hthread.trans hx.1.symm) hhandler
    rw [hx.2] at hxh
    cases hxh

theorem lawful : Lawful eptracer contracts where
  body := body_wp
  handler := fun t => by
    cases t <;> exact handler_wp
  starts := starts_wp
  rely := by
    intro s t b p q e hw hk hcur hstep hcan
    cases b with
    | true => cases t <;> trivial
    | false =>
        cases t with
        | stackTracer | syscallTracer => trivial
        | main =>
            obtain ⟨c, a⟩ := e
            cases c with
            | getSkel =>
                intro halone
                have hskel : a = skelAfter (s.log.map Entry.event) := hcan
                rw [hskel, own_main_eq (fun y hy => hy) hk ?_ ?_ halone]
                · intro y hy
                  refine (hw.started y.thread (hw.begun y hy).1).imp_right ?_
                  rintro ⟨z, hz, body, hstarts⟩
                  exact ⟨z, hz, startedBy_creates hstarts⟩
                · intro y hy hthread
                  refine Bool.eq_false_iff.mpr fun hhandler => ?_
                  refine (hw.begun y hy).2 hhandler ?_
                  rw [hthread]
                  exact (State.current_eq_false.mp hcur).1
            | _ => trivial

/-! ## Some runs -/

/-- What calls return if nothing fails but, maybe, `parse_cpu_mask_file`.  The stack
of process 7 is to be traced. -/
def answers (online : CpuMask) (log : List EptracerEntry) :
    (c : EptracerCall) → eptracerCalls.Answer c
  | .parseCpuMaskFile => online
  | .numPossibleCpus => 1
  | .argparseParse => .options ⟨⟨[], by decide⟩, ⟨[], by decide⟩, ⟨ascii "7", by decide⟩, 1, 0⟩
  | .spawn _ => ⟨⟨0, 1, 0, 0, none, .error⟩, Buf.zero 4, by decide⟩
  | .getSkel => skelAfter (log.map Entry.event)
  | .fopen _ | .calloc _ | .attachPerfEvent _ _ _ | .symbolizerNew | .perfBufferNew _
  | .ringBufferNew _ => true
  | .logAddFp | .openSkeleton | .loadSkeleton | .attachSkeleton _ | .mapFd _ _
  | .mapUpdateElem _ _ | .pthreadCreate _ | .perfBufferPoll | .ringBufferPoll => (0 : Int32)
  | .perfEventOpen _ => (3 : Int64)
  | .signal | .setPrint | .destroySkeleton _ | .freeObject | .setSkel _ | .pthreadJoin _
  | .printPid _ | .logError _ | .printf _ | .sleep => ()

theorem answers_can (online : CpuMask) (log : List EptracerEntry) (c : EptracerCall) :
    eptracer.can log ⟨c, answers online log c⟩ := by
  cases c with
  | getSkel => rfl
  | _ => trivial

/-- The programs are attached, and the stack tracer polls. -/
def tracingState : EptracerState :=
  .run eptracer (answers ⟨0, [true]⟩)
    (List.replicate 25 (.turn .main) ++ List.replicate 6 (.turn .stackTracer))

/-- SIGINT comes to `main`, and again to the stack tracer before the object that
`main` has freed is cleared. -/
def interruptedTwice : EptracerState :=
  .run eptracer (answers ⟨0, [true]⟩)
    (List.replicate 25 (.turn .main) ++ [.interrupt .main] ++ List.replicate 4 (.turn .main) ++
      [.interrupt .stackTracer] ++ List.replicate 4 (.turn .stackTracer) ++
      List.replicate 4 (.turn .main))

/-! ## The order of things -/

theorem Stored.mono {h h' : History eptracerCalls} (hh : ∀ e ∈ h, e ∈ h') (hs : Stored h) :
    Stored h' := by
  obtain ⟨args, spawn, region, fd, update, hparsed, hspawn, hregion, hupdate, hok⟩ := hs
  exact ⟨args, spawn, region, fd, update, hh _ hparsed, hh _ hspawn, hregion, hh _ hupdate, hok⟩

theorem Start.Asked.mono {start : Start} {h h' : History eptracerCalls}
    (hh : ∀ e ∈ h, e ∈ h') (hs : start.Asked h) : start.Asked h' := by
  cases start with
  | stackTracer | syscallTracer =>
      obtain ⟨args, hparsed, hasked⟩ := hs
      exact ⟨args, hh _ hparsed, hasked⟩

/-- What has to have happened before a call. -/
structure InOrder (before : List EptracerEntry) (x : EptracerEntry) : Prop where
  /-- The options are parsed once. -/
  parse : x.event.call = .argparseParse →
    ∀ e ∈ own before .main false, e.call ≠ .argparseParse
  /-- `libbpf_print_fn` can write to its stream from when it is installed. -/
  print : x.event.call = .setPrint → HasStream (own before .main false)
  /-- The programs are attached when what is to be traced is in `program_map`. -/
  attach : ∀ skel, x.event.call = .attachSkeleton skel → Stored (own before .main false)
  /-- A tracer runs if it was asked for, when the programs are attached. -/
  tracer : x.thread ≠ .main → Stored (own before .main false) ∧
    ∃ start : Start, start.thread = x.thread ∧
      ⟨.pthreadCreate start, (0 : Int32)⟩ ∈ own before .main false ∧
      start.Asked (own before .main false) ∧
      ∃ skel, ⟨.attachSkeleton skel, (0 : Int32)⟩ ∈ own before .main false

/-- A call of `main` or of its procedures is one that no other thread makes. -/
theorem main_guar (hk : Kept contracts s) {before after : List EptracerEntry}
    {x : EptracerEntry} (hlog : s.log = before ++ x :: after)
    (hcleanup : ¬ CleanUpCall x.event.call) (hthread : ¬ ThreadCall x.event.call) :
    x.thread = .main ∧ x.handling = false ∧ mainGuar (own before .main false) x.event := by
  have hguar := hk.calls before x after hlog
  obtain ⟨thread, handling, c, a⟩ := x
  cases handling with
  | true => cases thread <;> exact absurd hguar.1 hcleanup
  | false =>
      cases thread with
      | main => exact ⟨rfl, rfl, hguar⟩
      | syscallTracer => exact absurd hguar hthread
      | stackTracer =>
          refine absurd ?_ hthread
          cases c with
          | attachPerfEvent | mapFd => trivial
          | _ => exact hguar

theorem attached_stored (hk : Kept contracts s) {before : List EptracerEntry}
    (hlog : before <+: s.log) {skel : Option EptracerBpf} {errno : Int32}
    (hmem : ⟨.attachSkeleton skel, errno⟩ ∈ own before .main false) :
    Stored (own before .main false) := by
  obtain ⟨after, hafter⟩ := hlog
  obtain ⟨l₁, l₂, rfl⟩ := List.append_of_mem (mem_own.mp hmem)
  have hsplit : s.log = l₁ ++ ⟨.main, false, ⟨.attachSkeleton skel, errno⟩⟩ :: (l₂ ++ after) := by
    rw [← hafter, List.append_assoc, List.cons_append]
  have hguar := main_guar hk hsplit (by simp [CleanUpCall]) (by simp [ThreadCall])
  refine Stored.mono (fun e he => ?_) hguar.2.2.2
  rw [own_append]
  exact List.mem_append_left _ he

/-- A thread that has been started was created by `main`. -/
theorem started_by_main (hk : Kept contracts s) {before : List EptracerEntry}
    (hlog : before <+: s.log) {z : EptracerEntry} (hz : z ∈ before) {t : Thread}
    {body : EptracerProc Unit} (hstarts : eptracer.starts z.event = some (t, body)) :
    ∃ l₁ start, (∃ l₂, before = l₁ ++ z :: l₂) ∧ z = ⟨.main, false, ⟨.pthreadCreate start, 0⟩⟩ ∧
      start.thread = t ∧ Ready (own l₁ .main false) start := by
  obtain ⟨after, hafter⟩ := hlog
  obtain ⟨l₁, l₂, rfl⟩ := List.append_of_mem hz
  obtain ⟨start, hcall⟩ := startedBy_creates hstarts
  have hsplit : s.log = l₁ ++ z :: (l₂ ++ after) := by
    rw [← hafter, List.append_assoc, List.cons_append]
  obtain ⟨hmain, hhandling, hready⟩ := main_guar hk hsplit (by simp [hcall, CleanUpCall])
    (by simp [hcall, ThreadCall])
  obtain ⟨thread, handling, c, a⟩ := z
  obtain rfl : c = .pthreadCreate start := hcall
  obtain rfl : thread = .main := hmain
  obtain rfl : handling = false := hhandling
  simp only [eptracer, startedBy, Option.ite_none_right_eq_some, Option.some.injEq,
    Prod.mk.injEq] at hstarts
  obtain ⟨rfl, hthread, -⟩ := hstarts
  exact ⟨l₁, start, ⟨l₂, rfl⟩, rfl, hthread, hready⟩

/-- **The order of things.**  In every run of the process, the programs are
attached after the target has been stored, and a tracer makes its calls after
that, if the options ask for it.  libbpf has a stream to write to. -/
theorem lifecycle_order (s : EptracerState) (h : Reachable eptracer s) : Each InOrder s.log := by
  have hw := h.wellFormed
  have hk := h.kept lawful
  intro before x after hlog
  have hprefix : before <+: s.log := ⟨x :: after, hlog.symm⟩
  refine ⟨fun hcall => ?_, fun hcall => ?_, fun skel hcall => ?_, fun hthread => ?_⟩
  · obtain ⟨-, -, hguar⟩ := main_guar hk hlog (by simp [hcall, CleanUpCall])
      (by simp [hcall, ThreadCall])
    obtain ⟨thread, handling, c, a⟩ := x
    obtain rfl : c = .argparseParse := hcall
    exact hguar.2
  · obtain ⟨-, -, hguar⟩ := main_guar hk hlog (by simp [hcall, CleanUpCall])
      (by simp [hcall, ThreadCall])
    obtain ⟨thread, handling, c, a⟩ := x
    obtain rfl : c = .setPrint := hcall
    exact hguar
  · obtain ⟨-, -, hguar⟩ := main_guar hk hlog (by simp [hcall, CleanUpCall])
      (by simp [hcall, ThreadCall])
    obtain ⟨thread, handling, c, a⟩ := x
    obtain rfl : c = .attachSkeleton skel := hcall
    exact hguar.2
  · rcases (hw.calls before x after hlog).2.1 with hmain | ⟨z, hz, body, hstarts⟩
    · exact absurd hmain hthread
    · obtain ⟨l₁, start, ⟨l₂, rfl⟩, rfl, hstart, hready⟩ := started_by_main hk hprefix hz hstarts
      have hmem {e : EptracerEvent} (he : e ∈ own l₁ .main false) :
          e ∈ own (l₁ ++ ⟨.main, false, ⟨.pthreadCreate start, 0⟩⟩ :: l₂) .main false := by
        rw [own_append]
        exact List.mem_append_left _ he
      obtain ⟨skel, hattached⟩ := hready.attached
      refine ⟨attached_stored hk hprefix (hmem hattached), start, hstart, ?_,
        hready.asked.mono fun e he => hmem he, skel, hmem hattached⟩
      exact mem_own.mpr (List.mem_append_right _ List.mem_cons_self)

theorem lifecycle_order_tracing : Each InOrder tracingState.log :=
  lifecycle_order tracingState (State.run_reachable (answers_can _) _)

/-! ## How it ends -/

/-- A call that ends `main` is made by `main`, before it creates a thread. -/
theorem endsWith_main (hk : Kept contracts s) {before after : List EptracerEntry}
    {x : EptracerEntry} (hlog : s.log = before ++ x :: after) (hfails : Fails x.event) :
    x.thread = .main ∧ x.handling = false ∧ Alone (own before .main false) := by
  obtain ⟨thread, handling, c, a⟩ := x
  obtain ⟨status, hfails⟩ := hfails
  cases c with
  | parseCpuMaskFile | numPossibleCpus | fopen | logAddFp | spawn =>
      exact main_guar hk hlog id id
  | argparseParse =>
      obtain ⟨hmain, hhandling, hguar⟩ := main_guar hk hlog id id
      exact ⟨hmain, hhandling, hguar.1⟩
  | _ => exact absurd hfails id

/-- When a thread has been started, nothing has failed that ends `main`. -/
theorem works_of_started (hw : WellFormed eptracer s) (hk : Kept contracts s) {t : Thread}
    (ht : s.threads t ≠ none) (hmain : t ≠ .main) : ∀ x ∈ s.log, ¬ Fails x.event := by
  intro x hx hfails
  rcases hw.started t ht with h | ⟨z, hz, body, hstarts⟩
  · exact hmain h
  · obtain ⟨l₁, start, ⟨l₂, hlog⟩, rfl, -, hready⟩ :=
      started_by_main hk List.prefix_rfl hz hstarts
    rw [hlog] at hx
    rcases List.mem_append.mp hx with hx | hx
    · obtain ⟨before, after, rfl⟩ := List.append_of_mem hx
      have hsplit : s.log = before ++ x ::
          (after ++ ⟨.main, false, ⟨.pthreadCreate start, 0⟩⟩ :: l₂) := by simp [hlog]
      obtain ⟨hthread, hhandling, -⟩ := endsWith_main hk hsplit hfails
      refine hready.works x.event (mem_own.mpr ?_) hfails
      rw [← hthread, ← hhandling]
      exact List.mem_append_right _ List.mem_cons_self
    · rcases List.mem_cons.mp hx with rfl | hx
      · exact absurd hfails.choose_spec id
      · obtain ⟨before, after, rfl⟩ := List.append_of_mem hx
        have hsplit : s.log = (l₁ ++ ⟨.main, false, ⟨.pthreadCreate start, 0⟩⟩ :: before) ++
            x :: after := by simp [hlog]
        obtain ⟨-, -, halone⟩ := endsWith_main hk hsplit hfails
        refine halone ⟨.pthreadCreate start, 0⟩ ?_ ⟨start, rfl⟩
        exact mem_own.mpr (by simp)

theorem EndsWith.unique {status status' : Int32} {e : EptracerEvent} (h : EndsWith status e)
    (h' : EndsWith status' e) : status = status' := by
  obtain ⟨c, a⟩ := e
  cases c with
  | parseCpuMaskFile | numPossibleCpus | fopen | logAddFp | spawn => exact h.2.trans h'.2.symm
  | argparseParse =>
      have hexits : a = .exits status := h
      rw [hexits] at h'
      exact Parsed.exits.inj h'
  | _ => exact absurd h id

/-- SIGINT has interrupted `main` after a call: the calls of its handler are all
after that one. -/
def InterruptedAfter (s : EptracerState) (x : EptracerEntry) : Prop :=
  s.handlers .main ≠ none ∧ ∃ before after, s.log = before ++ x :: after ∧
    (∀ y ∈ before, y.handling = false) ∧ ∃ y ∈ after, y.thread = .main ∧ y.handling = true

/-- A handler that has slept after a call that ends `main` runs in `main`, and began
after that call. -/
theorem interruptedAfter_of_fails (hw : WellFormed eptracer s) (hk : Kept contracts s)
    {x : EptracerEntry} (hx : x ∈ s.log) (hfails : Fails x.event) {t : Thread}
    {e : EptracerEvent} (he : e ∈ own s.log t true) : InterruptedAfter s x := by
  have hthread {y : EptracerEntry} (hy : y ∈ s.log) : y.thread = .main :=
    Decidable.byContradiction fun hne =>
      works_of_started hw hk (hw.begun y hy).1 hne x hx hfails
  have hmem := mem_own.mp he
  obtain rfl : t = .main := hthread hmem
  obtain ⟨before, after, hlog⟩ := List.append_of_mem hx
  obtain ⟨-, hhandling, -⟩ := endsWith_main hk hlog hfails
  have hsuspended := hw.suspended
  rw [hlog] at hsuspended hmem
  have hbefore : ∀ y ∈ before, y.handling = false := by
    refine fun y hy => Bool.eq_false_iff.mpr fun hhandler => ?_
    have hsame : y.thread = x.thread := (hthread (by simp [hlog, hy])).trans (hthread hx).symm
    have hxh := (List.pairwise_append.mp hsuspended).2.2 y hy x List.mem_cons_self hsame hhandler
    rw [hhandling] at hxh
    cases hxh
  refine ⟨(hw.begun _ (mem_own.mp he)).2 rfl, before, after, hlog, hbefore,
    ⟨.main, true, e⟩, ?_, rfl, rfl⟩
  rcases List.mem_append.mp hmem with hmem | hmem
  · cases hbefore _ hmem
  · rcases List.mem_cons.mp hmem with rfl | hmem
    · cases hhandling
    · exact hmem

/-- **The status.**  The process ends with the status of the first call that fails
and ends `main`, and otherwise with 0, whatever else has failed.  If SIGINT comes
after such a failure, the status can be 0 as well. -/
theorem exit_status (s : EptracerState) (h : Reachable eptracer s) (status : Int32)
    (hend : s.outcome = some (.exited status)) :
    (status = 0 ∨ ∃ x ∈ s.log, EndsWith status x.event) ∧
    ∀ x ∈ s.log, ∀ status', EndsWith status' x.event →
      status = status' ∨ (status = 0 ∧ InterruptedAfter s x) := by
  have hw := h.wellFormed
  have hk := h.kept lawful
  obtain ⟨t, b, hcur, hexits⟩ := hk.exits hw hend
  cases b with
  | true =>
      obtain ⟨rfl, hslept⟩ : status = 0 ∧ ⟨.sleep, ()⟩ ∈ own s.log t true := by
        cases t <;> exact hexits
      refine ⟨.inl rfl, fun x hx status' hends => .inr ⟨rfl, ?_⟩⟩
      exact interruptedAfter_of_fails hw hk hx ⟨status', hends⟩ hslept
  | false =>
      have hthread := State.threads_of_current hw hcur
      cases t with
      | stackTracer => exact absurd hexits id
      | syscallTracer =>
          refine ⟨.inl hexits.1, fun x hx status' hends => ?_⟩
          exact absurd ⟨status', hends⟩ (works_of_started hw hk hthread (by simp) x hx)
      | main =>
          have hown {x : EptracerEntry} (hx : x ∈ s.log) (hfails : Fails x.event) :
              x.event ∈ own s.log .main false := by
            obtain ⟨before, after, hlog⟩ := List.append_of_mem hx
            obtain ⟨hmain, hhandling, -⟩ := endsWith_main hk hlog hfails
            rw [mem_own, ← hmain, ← hhandling]
            exact hx
          cases hexits with
          | failed hmem hends honly =>
              refine ⟨.inr ⟨_, mem_own.mp hmem, hends⟩, fun x hx status' hends' => .inl ?_⟩
              rw [honly _ (hown hx ⟨status', hends'⟩) ⟨status', hends'⟩] at hends'
              exact hends.unique hends'
          | cleanedUp hworks _ | joined hworks _ =>
              refine ⟨.inl rfl, fun x hx status' hends => ?_⟩
              exact absurd ⟨status', hends⟩ (hworks _ (hown hx ⟨status', hends⟩))

/-- What calls return if the first one fails. -/
def noCpusState : EptracerState :=
  .run eptracer (answers ⟨-2, []⟩) (List.replicate 4 (.turn .main))

theorem exit_status_noCpus :
    ((1 : Int32) = 0 ∨ ∃ x ∈ noCpusState.log, EndsWith 1 x.event) ∧
    ∀ x ∈ noCpusState.log, ∀ status', EndsWith status' x.event →
      1 = status' ∨ ((1 : Int32) = 0 ∧ InterruptedAfter noCpusState x) :=
  exit_status noCpusState (State.run_reachable (answers_can _) _) 1 rfl

/-- **The end.**  When the process has ended, a tracer has returned, or SIGINT has
come, or a thread could not be created, or the ring buffer of the other tracer
could not be. -/
theorem ends_after_tracers (s : EptracerState) (h : Reachable eptracer s) (status : Int32)
    (hend : s.outcome = some (.exited status)) (t : Thread) (ht : t ≠ .main)
    (p : EptracerProc Unit) (hp : s.threads t = some p) :
    p = .ret () ∨ (∃ u, s.handlers u ≠ none) ∨ (∃ x ∈ s.log, CreateFails x.event) ∨
      ∃ x ∈ s.log, ∃ fd, x.event = ⟨.ringBufferNew fd, false⟩ := by
  have hw := h.wellFormed
  have hk := h.kept lawful
  have hstarted : s.threads t ≠ none := by simp [hp]
  obtain ⟨z, hz, body, hstarts⟩ := (hw.started t hstarted).resolve_left ht
  obtain ⟨l₁, start, ⟨l₂, hlog⟩, rfl, rfl, -⟩ := started_by_main hk List.prefix_rfl hz hstarts
  have hcreated : ⟨.pthreadCreate start, (0 : Int32)⟩ ∈ own s.log .main false := mem_own.mpr hz
  obtain ⟨u, b, hcur, hexits⟩ := hk.exits hw hend
  cases b with
  | true =>
      refine .inr (.inl ⟨u, ?_⟩)
      simp [State.current_eq_true.mp hcur]
  | false =>
      cases u with
      | stackTracer => exact absurd hexits id
      | syscallTracer =>
          obtain ⟨-, fd, hfd⟩ := hexits
          exact .inr (.inr (.inr ⟨_, mem_own.mp hfd, fd, rfl⟩))
      | main =>
          cases hexits with
          | failed hmem hends _ =>
              exact absurd ⟨_, hends⟩
                (works_of_started hw hk hstarted ht _ (mem_own.mp hmem))
          | cleanedUp _ hthreads =>
              rcases hthreads with halone | ⟨e, he, hfails⟩
              · exact absurd ⟨start, rfl⟩ (halone _ hcreated)
              · exact .inr (.inr (.inl ⟨_, mem_own.mp he, hfails⟩))
          | joined _ hjoined =>
              have hret := hw.awaited _ (mem_own.mp (hjoined start hcreated)) start.thread rfl
              rw [hp] at hret
              exact .inl (Option.some.inj hret)

/-- The first SIGINT ends the process, with the stack tracer where it was. -/
theorem ends_after_tracers_interrupted :
    stackTracerProc ⟨[true], 1, 1, rfl⟩ (some ⟨true⟩) = .ret () ∨
      (∃ u, interruptedTwice.handlers u ≠ none) ∨
      (∃ x ∈ interruptedTwice.log, CreateFails x.event) ∨
      ∃ x ∈ interruptedTwice.log, ∃ fd, x.event = ⟨.ringBufferNew fd, false⟩ :=
  ends_after_tracers interruptedTwice (State.run_reachable (answers_can _) _) 0 rfl .stackTracer
    (by decide) _ rfl

/-! ## The object -/

/-- The call reads through the pointer `skel`. -/
def Uses (skel : Option EptracerBpf) : EptracerCall → Prop
  | .mapFd _ used | .attachSkeleton used | .attachPerfEvent used _ _ => used = skel
  | _ => False

/-- The object is freed by a thread that read `skel` when no one had cleared it. -/
def ReadUncleared (before : List EptracerEntry) (x : EptracerEntry) : Prop :=
  ∃ (l₁ l₂ : List EptracerEntry) (obj : EptracerBpf),
    before = l₁ ++ ⟨x.thread, x.handling, ⟨.getSkel, some obj⟩⟩ :: l₂ ∧
    (∀ e ∈ own l₂ x.thread x.handling, e.call ≠ .getSkel) ∧ ∀ y ∈ l₁, ¬ Clears y.event

/-- How a call uses or frees the object, where `before` is the log before it. -/
structure Lifetime (before : List EptracerEntry) (x : EptracerEntry) : Prop where
  /-- `main` uses the object before it is freed. -/
  use : x.thread = .main → ∀ skel, Uses skel x.event.call →
    skel = some ⟨true⟩ ∧ ∀ y ∈ before, ¬ Frees y.event
  /-- A thread or a handler frees the object once. -/
  once : Frees x.event → ∀ e ∈ own before x.thread x.handling, ¬ Frees e
  /-- A second free is by a thread that still had the pointer. -/
  overlap : Frees x.event → (∃ y ∈ before, Frees y.event) → ReadUncleared before x

theorem skelAfter_eq_some {h : History eptracerCalls} {obj : EptracerBpf}
    (hskel : skelAfter h = some obj) :
    ∃ h₁ h₂, h = h₁ ++ ⟨.setSkel (some obj), ()⟩ :: h₂ ∧
      ∀ e ∈ h₂, ¬ Publishes e ∧ ¬ Clears e := by
  induction h using List.reverseRecOn with
  | nil => cases hskel
  | append_singleton h e ih =>
      by_cases hset : ∃ skel, e.call = .setSkel skel
      · obtain ⟨skel, hcall⟩ := hset
        obtain ⟨c, a⟩ := e
        obtain rfl : c = .setSkel skel := hcall
        have hlast : skelAfter (h ++ [⟨.setSkel skel, a⟩]) = skel := skelAfter_setSkel h skel
        obtain rfl : skel = some obj := hlast.symm.trans hskel
        exact ⟨h, [], rfl, by simp⟩
      · have hplain : ¬ Publishes e ∧ ¬ Clears e :=
          ⟨fun ⟨obj, hcall⟩ => hset ⟨_, hcall⟩, fun hcall => hset ⟨_, hcall⟩⟩
        rw [skelAfter_append (List.forall_mem_singleton.mpr hplain)] at hskel
        obtain ⟨h₁, h₂, rfl, hrest⟩ := ih hskel
        exact ⟨h₁, h₂ ++ [e], by simp, forall_mem_snoc hrest hplain⟩

/-- What is in `skel` has been there from when it was stored. -/
theorem notCleared_of_skelAfter (hw : WellFormed eptracer s) (hk : Kept contracts s)
    {before : List EptracerEntry} (hlog : before <+: s.log) {obj : EptracerBpf}
    (hskel : skelAfter (before.map Entry.event) = some obj) : ∀ y ∈ before, ¬ Clears y.event := by
  obtain ⟨after, hafter⟩ := hlog
  obtain ⟨h₁, h₂, heq, hrest⟩ := skelAfter_eq_some hskel
  obtain ⟨l₁, l, rfl, rfl, hl⟩ := List.map_eq_append_iff.mp heq
  obtain ⟨z, l₂, rfl, hz, rfl⟩ := List.map_eq_cons_iff.mp hl
  have hsplit : s.log = l₁ ++ z :: (l₂ ++ after) := by
    rw [← hafter, List.append_assoc, List.cons_append]
  obtain ⟨hmain, hhandling⟩ := publishes_guar (hk.calls l₁ z _ hsplit) ⟨obj, by rw [hz]⟩
  have hguar : (contracts z.thread z.handling).guar (own l₁ z.thread z.handling) z.event :=
    hk.calls l₁ z _ hsplit
  rw [hmain, hhandling, hz] at hguar
  obtain ⟨⟨-, halone, -⟩, hnotCleared⟩ := hguar
  have hown := before_eq_own hw hk hsplit ⟨hmain, hhandling⟩ halone
  intro y hy
  rcases List.mem_append.mp hy with hy | hy
  · refine hnotCleared y.event ?_
    rw [hown]
    exact List.mem_map_of_mem hy
  · rcases List.mem_cons.mp hy with rfl | hy
    · rw [hz]
      simp [Clears]
    · exact (hrest _ (List.mem_map_of_mem hy)).2

/-- A pointer that is freed has been read from `skel`, or is still `main`'s own. -/
theorem frees_guar (hk : Kept contracts s) {before after : List EptracerEntry}
    {x : EptracerEntry} (hlog : s.log = before ++ x :: after) (hfrees : Frees x.event) :
    (∀ e ∈ own before x.thread x.handling, ¬ Frees e) ∧
      (ReadBefore (own before x.thread x.handling) ∨
        (x.thread = .main ∧ x.handling = false ∧ Alone (own before .main false))) ∧
      (x.handling = false → x.thread = .main ∧ MayFree (own before .main false)) := by
  have hguar := hk.calls before x after hlog
  obtain ⟨thread, handling, c, a⟩ := x
  obtain rfl : c = .freeObject := hfrees
  cases handling with
  | true =>
      have hfree : (∀ e ∈ own before thread true, ¬ Frees e) ∧
          ReadBefore (own before thread true) := by
        cases thread <;> exact hguar.2 rfl
      exact ⟨hfree.1, .inl hfree.2, by simp⟩
  | false =>
      cases thread with
      | main =>
          have hfree : MayFree (own before .main false) := hguar
          refine ⟨hfree.once, ?_, fun _ => ⟨rfl, hfree⟩⟩
          exact hfree.source.imp_right fun h => ⟨rfl, rfl, h.1⟩
      | stackTracer | syscallTracer => exact absurd hguar id

theorem uses_guar (hk : Kept contracts s) {before after : List EptracerEntry}
    {x : EptracerEntry} (hlog : s.log = before ++ x :: after) {skel : Option EptracerBpf}
    (huses : Uses skel x.event.call) :
    x.handling = false ∧ (x.thread = .main → InUse (own before .main false) skel) := by
  have hguar := hk.calls before x after hlog
  obtain ⟨thread, handling, c, a⟩ := x
  cases handling with
  | true =>
      cases c with
      | mapFd | attachSkeleton | attachPerfEvent => cases thread <;> exact absurd hguar.1 id
      | _ => exact absurd huses id
  | false =>
      refine ⟨rfl, ?_⟩
      rintro rfl
      cases c with
      | mapFd map used =>
          obtain rfl : used = skel := huses
          exact hguar
      | attachSkeleton used =>
          obtain rfl : used = skel := huses
          exact hguar.1
      | attachPerfEvent => exact absurd hguar id
      | _ => exact absurd huses id

theorem lifetime_of_reachable (hw : WellFormed eptracer s) (hk : Kept contracts s) :
    Each Lifetime s.log := by
  intro before x after hlog
  refine ⟨fun hmain skel huses => ?_, fun hfrees => ?_, fun hfrees hfreed => ?_⟩
  · obtain ⟨hhandling, huse⟩ := uses_guar hk hlog huses
    obtain ⟨hskel, halone, hnotFreed⟩ := huse hmain
    refine ⟨hskel, fun y hy => hnotFreed y.event ?_⟩
    rw [before_eq_own hw hk hlog ⟨hmain, hhandling⟩ halone]
    exact List.mem_map_of_mem hy
  · exact (frees_guar hk hlog hfrees).1
  · obtain ⟨honce, hsource, -⟩ := frees_guar hk hlog hfrees
    rcases hsource with hread | ⟨hmain, hhandling, halone⟩
    · obtain ⟨pre, obj, mid, heq, hmid⟩ := hread
      obtain ⟨l₁, l₂, rfl, -, rfl⟩ := own_eq_append_cons heq
      refine ⟨l₁, l₂, obj, rfl, hmid, ?_⟩
      have hcan := (hw.calls l₁ ⟨x.thread, x.handling, ⟨.getSkel, some obj⟩⟩ (l₂ ++ x :: after)
        (by simp [hlog])).1
      have hskel : some obj = skelAfter (l₁.map Entry.event) := hcan
      refine notCleared_of_skelAfter hw hk ?_ hskel.symm
      rw [hlog, List.append_assoc]
      exact List.prefix_append _ _
    · obtain ⟨y, hy, hfreed⟩ := hfreed
      rw [hmain, hhandling, before_eq_own hw hk hlog ⟨hmain, hhandling⟩ halone] at honce
      exact absurd hfreed (honce _ (List.mem_map_of_mem hy))

/-- Without SIGINT, only `main` frees. -/
theorem frees_of_calm (hw : WellFormed eptracer s) (hk : Kept contracts s)
    (hcalm : ∀ t, s.handlers t = none) {before after : List EptracerEntry} {x : EptracerEntry}
    (hlog : s.log = before ++ x :: after) (hfrees : Frees x.event) :
    x.thread = .main ∧ x.handling = false ∧ MayFree (own before .main false) := by
  have hhandling : x.handling = false := by
    refine Bool.eq_false_iff.mpr fun hhandling => ?_
    exact (hw.begun x (by simp [hlog])).2 hhandling (hcalm _)
  obtain ⟨hmain, hfree⟩ := (frees_guar hk hlog hfrees).2.2 hhandling
  exact ⟨hmain, hhandling, hfree⟩

/-- Without SIGINT, the object is freed once, and only the stack tracer can use it
after that, if the other one could not be created. -/
theorem freed_of_calm (hw : WellFormed eptracer s) (hk : Kept contracts s)
    (hcalm : ∀ t, s.handlers t = none) :
    Each (fun before x => (∃ y ∈ before, Frees y.event) → ¬ Frees x.event ∧
      ∀ skel, Uses skel x.event.call →
        x.thread = .stackTracer ∧ ∃ y ∈ before, CreateFails y.event) s.log := by
  intro before x after hlog
  rintro ⟨y, hy, hfreed⟩
  have hlife := lifetime_of_reachable hw hk before x after hlog
  obtain ⟨b₁, b₂, rfl⟩ := List.append_of_mem hy
  have hysplit : s.log = b₁ ++ y :: (b₂ ++ x :: after) := by
    rw [hlog, List.append_assoc, List.cons_append]
  obtain ⟨hymain, hyhandling, hyfree⟩ := frees_of_calm hw hk hcalm hysplit hfreed
  have hyown {l : List EptracerEntry} (hl : y ∈ l) : y.event ∈ own l .main false := by
    rw [mem_own, ← hymain, ← hyhandling]
    exact hl
  refine ⟨fun hfrees => ?_, fun skel huses => ?_⟩
  · obtain ⟨hmain, hhandling, -⟩ := frees_of_calm hw hk hcalm hlog hfrees
    have honce := hlife.once hfrees
    rw [hmain, hhandling] at honce
    exact honce y.event (hyown hy) hfreed
  · have hthread : x.thread ≠ .main := fun hmain => (hlife.use hmain skel huses).2 y hy hfreed
    obtain ⟨z, hz, body, hstarts⟩ := (hw.calls _ x after hlog).2.1.resolve_left hthread
    obtain ⟨l₁, start, ⟨l₂, hz⟩, rfl, hstart, hready⟩ :=
      started_by_main hk ⟨x :: after, hlog.symm⟩ hz hstarts
    -- the thread was created before the object was freed
    have hcreate : ⟨.pthreadCreate start, (0 : Int32)⟩ ∈ own b₁ .main false := by
      rcases List.append_eq_append_iff.mp hz with ⟨l, rfl, hl⟩ | ⟨l, rfl, hl⟩
      · cases l with
        | nil =>
            obtain ⟨rfl, -⟩ := List.cons.inj hl
            cases hfreed
        | cons y' l =>
            obtain ⟨rfl, -⟩ := List.cons.inj hl
            exact absurd hfreed (hready.notFreed _ (hyown (by simp)))
      · cases l with
        | nil =>
            obtain ⟨rfl, -⟩ := List.cons.inj hl
            cases hfreed
        | cons z' l =>
            obtain ⟨rfl, -⟩ := List.cons.inj hl
            exact mem_own.mpr (by simp)
    constructor
    · cases start with
      | stackTracer => exact hstart.symm
      | syscallTracer skel => exact absurd hcreate (hyfree.noSyscallTracer skel)
    · rcases hyfree.threads with halone | ⟨e, he, hfails⟩
      · exact absurd ⟨start, rfl⟩ (halone _ hcreate)
      · exact ⟨_, List.mem_append_left _ (mem_own.mp he), hfails⟩

/-- **The life of the object.**  `main` uses the object only before it is freed.  If
it is freed twice, by two threads or handlers, then both have read the pointer
before anyone cleared it.  Without SIGINT that does not happen, and a use after
the object is freed is one of the stack tracer, when the other tracer could not
be created. -/
theorem skeleton_lifetime (s : EptracerState) (h : Reachable eptracer s) :
    Each Lifetime s.log ∧ ((∀ t, s.handlers t = none) →
      Each (fun before x => (∃ y ∈ before, Frees y.event) → ¬ Frees x.event ∧
        ∀ skel, Uses skel x.event.call →
          x.thread = .stackTracer ∧ ∃ y ∈ before, CreateFails y.event) s.log) :=
  ⟨lifetime_of_reachable h.wellFormed (h.kept lawful),
    freed_of_calm h.wellFormed (h.kept lawful)⟩

/-- The object is freed twice in the first of these runs, and not at all in the
second one. -/
theorem skeleton_lifetime_interrupted :
    Each Lifetime interruptedTwice.log ∧
      Each (fun before x => (∃ y ∈ before, Frees y.event) → ¬ Frees x.event ∧
        ∀ skel, Uses skel x.event.call →
          x.thread = .stackTracer ∧ ∃ y ∈ before, CreateFails y.event) tracingState.log :=
  ⟨(skeleton_lifetime interruptedTwice (State.run_reachable (answers_can _) _)).1,
    (skeleton_lifetime tracingState (State.run_reachable (answers_can _) _)).2
      fun t => by cases t <;> rfl⟩

end EPtracer
