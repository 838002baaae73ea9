import EPtracer.Lifecycle.Contracts

/-!
# The stages of `main`

`main` keeps its contract.  For each of its stages there is one lemma, about the
procedure that is the rest of `main` from there on, and about what `main` knows
when it gets there.  The stages stand in the order of the definitions, the last
one first.
-/

namespace EPtracer

open CText Procedure Trace

/-! ## What `main` knows -/

/-- A call that changes nothing of what `main` knows. -/
@[mk_iff] structure Quiet (e : EptracerEvent) : Prop where
  creates : ¬ Creates e
  fails : ¬ Fails e
  frees : ¬ Frees e
  clears : ¬ Clears e

/-- Nothing has failed, and there is only `main`. -/
structure Calm (h : History eptracerCalls) : Prop where
  alone : Alone h
  works : ∀ e ∈ h, ¬ Fails e
  notFreed : ∀ e ∈ h, ¬ Frees e
  notCleared : ∀ e ∈ h, ¬ Clears e

theorem Calm.append {h l : History eptracerCalls} (hh : Calm h) (hl : ∀ e ∈ l, Quiet e) :
    Calm (h ++ l) where
  alone := List.forall_mem_append.mpr ⟨hh.alone, fun e he => (hl e he).creates⟩
  works := List.forall_mem_append.mpr ⟨hh.works, fun e he => (hl e he).fails⟩
  notFreed := List.forall_mem_append.mpr ⟨hh.notFreed, fun e he => (hl e he).frees⟩
  notCleared := List.forall_mem_append.mpr ⟨hh.notCleared, fun e he => (hl e he).clears⟩

theorem Calm.snoc {h : History eptracerCalls} (hh : Calm h) {e : EptracerEvent} (he : Quiet e) :
    Calm (h ++ [e]) :=
  hh.append (List.forall_mem_singleton.mpr he)

theorem skelAfter_append {h l : History eptracerCalls} (hl : ∀ e ∈ l, ¬ Publishes e ∧ ¬ Clears e) :
    skelAfter (h ++ l) = skelAfter h := by
  induction l generalizing h with
  | nil => rw [List.append_nil]
  | cons e l ih =>
      rw [List.append_cons, ih fun e he => hl e (List.mem_cons_of_mem _ he)]
      obtain ⟨hpublishes, hclears⟩ := hl e List.mem_cons_self
      rw [skelAfter, List.foldl_append]
      obtain ⟨c, a⟩ := e
      cases c with
      | setSkel skel =>
          cases skel with
          | none => exact absurd rfl hclears
          | some obj => exact absurd ⟨obj, rfl⟩ hpublishes
      | _ => rfl

theorem skelAfter_setSkel (h : History eptracerCalls) (skel : Option EptracerBpf) :
    skelAfter (h ++ [⟨.setSkel skel, ()⟩]) = skel := by
  rw [skelAfter, List.foldl_append]
  rfl

/-- The object has been loaded, with these options. -/
structure Loaded (args : Options) (h : History eptracerCalls) : Prop extends Calm h where
  parsed : ⟨.argparseParse, .options args⟩ ∈ h
  skel : skelAfter h = some ⟨true⟩

theorem Loaded.snoc_of_quiet {args : Options} {h : History eptracerCalls} (hh : Loaded args h)
    {e : EptracerEvent} (he : Quiet e) (hpublishes : ¬ Publishes e) : Loaded args (h ++ [e]) where
  toCalm := hh.toCalm.snoc he
  parsed := List.mem_append_left _ hh.parsed
  skel := by
    rw [skelAfter_append (List.forall_mem_singleton.mpr ⟨hpublishes, he.clears⟩)]
    exact hh.skel

/-- The calls that neither can fail nor change what `main` knows. -/
def PlainCall : EptracerCall → Prop
  | .signal | .setPrint | .getSkel | .mapFd _ _ | .mapUpdateElem _ _
  | .attachSkeleton _ | .printPid _ | .logError _ => True
  | _ => False

theorem PlainCall.quiet {e : EptracerEvent} (he : PlainCall e.call) :
    Quiet e ∧ ¬ Publishes e := by
  obtain ⟨c, a⟩ := e
  cases c with
  | signal | setPrint | getSkel | mapFd | mapUpdateElem | attachSkeleton
  | printPid | logError =>
      simp [quiet_iff, Creates, Fails, EndsWith, Frees, Clears, Publishes]
  | _ => exact absurd he id

theorem Loaded.snoc {args : Options} {h : History eptracerCalls} (hh : Loaded args h)
    {e : EptracerEvent} (he : PlainCall e.call) : Loaded args (h ++ [e]) :=
  hh.snoc_of_quiet he.quiet.1 he.quiet.2

/-! ## The end of `main` -/

/-- `MainExits`, with the status first. -/
abbrev mainEnds : Int32 → History eptracerCalls → Prop := fun status h => MainExits h status

/-- The first call that fails ends `main`. -/
theorem MainExits.of_works {h : History eptracerCalls} (hworks : ∀ e ∈ h, ¬ Fails e)
    {e : EptracerEvent} {status : Int32} (he : EndsWith status e) :
    MainExits (h ++ [e]) status := by
  refine .failed (List.mem_append_right _ List.mem_cons_self) he ?_
  exact forall_mem_snoc (fun e' he' hfails => absurd hfails (hworks e' he')) fun _ => rfl

/-- The same, with the line that says what has failed. -/
theorem MainExits.of_works_log {h : History eptracerCalls} (hworks : ∀ e ∈ h, ¬ Fails e)
    {e : EptracerEvent} {status : Int32} (he : EndsWith status e) (text : String) :
    MainExits (h ++ [e] ++ [⟨.logError text, ()⟩]) status := by
  refine .failed (List.mem_append_left _ (List.mem_append_right _ List.mem_cons_self)) he ?_
  refine forall_mem_snoc (forall_mem_snoc ?_ fun _ => rfl) ?_
  · exact fun e' he' hfails => absurd hfails (hworks e' he')
  · exact fun h => absurd h.choose_spec id

/-- `main` fails.  If `skel` is not null it is freed. -/
theorem failMain_wp {text : String} {h : History eptracerCalls} (hworks : ∀ e ∈ h, ¬ Fails e)
    (hthreads : Alone h ∨ ∃ e ∈ h, CreateFails e)
    (hfree : ∀ obj, (Alone h → some obj = skelAfter h) → (∀ e ∈ h, ¬ Frees e) ∧
      ∀ skel, ⟨.pthreadCreate (.syscallTracer skel), (0 : Int32)⟩ ∉ h) :
    (failMain text).wp mainContract mainEnds h := by
  simp only [failMain, perform, Proc.perform, Proc.call_bind, Proc.ret_bind]
  have hcreate {l : History eptracerCalls} (hl : ∀ e ∈ l, CleanUpCall e.call) :
      ∀ e ∈ l, ¬ Creates e := by
    rintro e he ⟨start, hstart⟩
    have hcall := hl e he
    rw [hstart] at hcall
    exact hcall
  have hlog {l : History eptracerCalls} (hl : ∀ e ∈ l, CleanUpCall e.call) :
      Alone (h ++ [⟨.logError text, ()⟩] ++ l) ∨
        ∃ e ∈ h ++ [⟨.logError text, ()⟩] ++ l, CreateFails e := by
    refine hthreads.imp (fun halone => ?_) ?_
    · exact List.forall_mem_append.mpr ⟨forall_mem_snoc halone (by simp [Creates]), hcreate hl⟩
    · rintro ⟨e, he, hfails⟩
      exact ⟨e, List.mem_append_left _ (List.mem_append_left _ he), hfails⟩
  refine fun _ _ => ⟨trivial, Proc.wp_bind_iff.mpr (cleanup_wp ?_ ?_ ?_)⟩
  · rintro h ⟨c, a⟩ hcall hfree
    cases c with
    | freeObject => exact absurd rfl hfree
    | setSkel skel =>
        cases skel with
        | none => trivial
        | some obj => exact absurd hcall id
    | getSkel | destroySkeleton | sleep | printf => trivial
    | _ => exact absurd hcall id
  · intro obj hrely l hl hnotFreed hread
    have halone : Alone h → some obj = skelAfter h := by
      intro halone
      have hskel := skelAfter_append (h := h) (l := [⟨.logError text, ()⟩])
        (List.forall_mem_singleton.mpr (by simp [Publishes, Clears]))
      rw [← hskel]
      exact hrely (forall_mem_snoc halone (by simp [Creates]))
    obtain ⟨honce, hsyscall⟩ := hfree obj halone
    refine ⟨?_, .inl hread, fun skel hmem => ?_, hlog hl⟩
    · exact List.forall_mem_append.mpr ⟨forall_mem_snoc honce (by simp [Frees]), hnotFreed⟩
    · rcases List.mem_append.mp hmem with hmem | hmem
      · rcases List.mem_append.mp hmem with hmem | hmem
        · exact hsyscall skel hmem
        · simp at hmem
      · exact hcreate hl _ hmem ⟨_, rfl⟩
  · intro l hl _
    refine .cleanedUp (List.forall_mem_append.mpr ⟨forall_mem_snoc hworks ?_, ?_⟩) (hlog hl)
    · simp [Fails, EndsWith]
    · rintro ⟨c, a⟩ he
      have hcall := hl _ he
      cases c with
      | parseCpuMaskFile | numPossibleCpus | argparseParse | fopen | logAddFp | spawn =>
          exact absurd hcall id
      | _ => exact fun h => absurd h.choose_spec id

/-- A failure when the object has been loaded. -/
theorem Loaded.failMain_wp {args : Options} {text : String} {h : History eptracerCalls}
    (hh : Loaded args h) : (failMain text).wp mainContract mainEnds h :=
  EPtracer.failMain_wp hh.works (.inl hh.alone) fun _ _ =>
    ⟨hh.notFreed, fun _ hmem => hh.alone _ hmem ⟨_, rfl⟩⟩

/-! ## The stages of `main` -/

theorem joinThreads_wp (threads : List Thread) (h : History eptracerCalls) :
    (joinThreads threads).wp mainContract (fun _ h' => ∃ l, h' = h ++ l ∧
      (∀ e ∈ l, ∃ thread, e.call = .pthreadJoin thread) ∧
      ∀ thread ∈ threads, ⟨.pthreadJoin thread, ()⟩ ∈ l) h := by
  induction threads generalizing h with
  | nil => exact ⟨[], by simp⟩
  | cons thread threads ih =>
      simp only [joinThreads, perform, Proc.perform, Proc.call_bind, Proc.ret_bind]
      refine fun _ _ => ⟨trivial, Proc.wp_mono ?_ (ih _)⟩
      rintro - h' ⟨l, rfl, hjoins, hall⟩
      refine ⟨⟨.pthreadJoin thread, ()⟩ :: l, (List.append_cons ..).symm, ?_, ?_⟩
      · exact List.forall_mem_cons.mpr ⟨⟨thread, rfl⟩, hjoins⟩
      · refine List.forall_mem_cons.mpr ⟨List.mem_cons_self, fun t ht => ?_⟩
        exact List.mem_cons_of_mem _ (hall t ht)

/-- The threads that have been created, and what `main` knows when some may
have. -/
structure Running (args : Options) (threads : List Thread) (h : History eptracerCalls) :
    Prop where
  works : ∀ e ∈ h, ¬ Fails e
  notFreed : ∀ e ∈ h, ¬ Frees e
  parsed : ⟨.argparseParse, .options args⟩ ∈ h
  attached : ∃ skel, ⟨.attachSkeleton skel, (0 : Int32)⟩ ∈ h
  skel : Alone h → skelAfter h = some ⟨true⟩
  started : ∀ start, ⟨.pthreadCreate start, (0 : Int32)⟩ ∈ h → start.thread ∈ threads
  asked : args.showStacktrace = 0 → args.showSyscall = 0 → threads = []

theorem joinTracers_wp {args : Options} {threads : List Thread} {h : History eptracerCalls}
    (hworks : ∀ e ∈ h, ¬ Fails e)
    (hstarted : ∀ start, ⟨.pthreadCreate start, (0 : Int32)⟩ ∈ h → start.thread ∈ threads)
    (hasked : args.showStacktrace = 0 → args.showSyscall = 0 → threads = []) :
    (joinTracers args threads).wp mainContract mainEnds h := by
  simp only [joinTracers, perform, Proc.perform, Proc.call_bind, Proc.ret_bind]
  split
  next hnone =>
    refine fun _ _ => ⟨trivial, .joined ?_ ?_⟩
    · exact forall_mem_snoc hworks (by simp [Fails, EndsWith])
    · intro start hmem
      rw [hasked hnone.1 hnone.2] at hstarted
      rcases List.mem_append.mp hmem with hmem | hmem
      · exact absurd (hstarted start hmem) List.not_mem_nil
      · simp at hmem
  next =>
    refine Proc.wp_bind_iff.mpr (Proc.wp_mono ?_ (joinThreads_wp threads h))
    rintro - h' ⟨l, rfl, hjoins, hall⟩
    refine .joined (List.forall_mem_append.mpr ⟨hworks, ?_⟩) ?_
    · rintro ⟨c, a⟩ he
      obtain ⟨thread, rfl⟩ := hjoins _ he
      exact fun h => absurd h.choose_spec id
    · intro start hmem
      rcases List.mem_append.mp hmem with hmem | hmem
      · exact List.mem_append_right _ (hall _ (hstarted start hmem))
      · obtain ⟨thread, hjoin⟩ := hjoins _ hmem
        cases hjoin

theorem works_created {h : History eptracerCalls} (hworks : ∀ e ∈ h, ¬ Fails e)
    (skel : Option EptracerBpf) (start : Start) (failed : Int32) :
    ∀ e ∈ h ++ [⟨.getSkel, skel⟩] ++ [⟨.pthreadCreate start, failed⟩], ¬ Fails e :=
  forall_mem_snoc (forall_mem_snoc hworks (by simp [Fails, EndsWith])) (by simp [Fails, EndsWith])

theorem notFreed_created {h : History eptracerCalls} (hnotFreed : ∀ e ∈ h, ¬ Frees e)
    (skel : Option EptracerBpf) (start : Start) (failed : Int32) :
    ∀ e ∈ h ++ [⟨.getSkel, skel⟩] ++ [⟨.pthreadCreate start, failed⟩], ¬ Frees e :=
  forall_mem_snoc (forall_mem_snoc hnotFreed (by simp [Frees])) (by simp [Frees])

theorem startSyscallTracer_wp {args : Options} {threads : List Thread}
    {h : History eptracerCalls} (hh : Running args threads h)
    (hno : ∀ skel failed, ⟨.pthreadCreate (.syscallTracer skel), failed⟩ ∉ h) :
    (startSyscallTracer args threads).wp mainContract mainEnds h := by
  simp only [startSyscallTracer, perform, Proc.perform, Proc.call_bind, Proc.ret_bind]
  split
  next hasked =>
    refine Proc.wp_call.mpr fun skel hskel => ⟨trivial, Proc.wp_call.mpr fun failed _ => ⟨?_, ?_⟩⟩
    · refine ⟨?_, ?_, ?_, ?_, ?_, by simp [Start.thread]⟩
      · obtain ⟨skel, hattached⟩ := hh.attached
        exact ⟨skel, List.mem_append_left _ hattached⟩
      · exact forall_mem_snoc hh.works (by simp [Fails, EndsWith])
      · exact forall_mem_snoc hh.notFreed (by simp [Frees])
      · exact ⟨args, List.mem_append_left _ hh.parsed, hasked⟩
      · intro halone
        have halone : Alone h := (List.forall_mem_append.mp halone).1
        exact (hskel halone).trans (hh.skel halone)
    · have hworks := works_created hh.works skel (.syscallTracer skel) failed
      split
      next hfailed =>
        refine failMain_wp hworks (.inr ?_) fun obj _ => ⟨?_, ?_⟩
        · exact ⟨_, List.mem_append_right _ List.mem_cons_self, _, failed, hfailed, rfl⟩
        · exact notFreed_created hh.notFreed skel _ failed
        · intro skel' hmem
          have hnot := hno skel' 0
          simp only [List.mem_append, hnot, List.mem_singleton, Event.mk.injEq, reduceCtorEq,
            false_and, false_or, EptracerCall.pthreadCreate.injEq] at hmem
          exact hfailed (eq_of_heq hmem.2).symm
      next hfailed =>
        refine joinTracers_wp hworks ?_ fun _ h => absurd h hasked
        intro start hmem
        simp only [List.mem_append, List.mem_singleton, Event.mk.injEq, reduceCtorEq,
          false_and, or_false, EptracerCall.pthreadCreate.injEq] at hmem
        rcases hmem with hmem | ⟨rfl, -⟩
        · exact List.mem_append_left _ (hh.started start hmem)
        · exact List.mem_append_right _ List.mem_cons_self
  next => exact joinTracers_wp hh.works hh.started hh.asked

theorem startTracers_wp {args : Options} {tracerArgs : StackTracerArgs}
    {h : History eptracerCalls} (hh : Loaded args h)
    (hattached : ∃ skel, ⟨.attachSkeleton skel, (0 : Int32)⟩ ∈ h) :
    (startTracers args tracerArgs).wp mainContract mainEnds h := by
  have hnone {start : Start} {failed : Int32} : ⟨.pthreadCreate start, failed⟩ ∉ h :=
    fun hmem => hh.alone _ hmem ⟨start, rfl⟩
  simp only [startTracers, perform, Proc.perform, Proc.call_bind, Proc.ret_bind]
  split
  next hasked =>
    refine Proc.wp_call.mpr fun skel hskel => ⟨trivial, Proc.wp_call.mpr fun failed _ => ⟨?_, ?_⟩⟩
    · have hread : Loaded args (h ++ [⟨.getSkel, skel⟩]) := hh.snoc trivial
      refine ⟨?_, hread.works, hread.notFreed, ⟨args, hread.parsed, hasked⟩, ?_,
        fun _ => hread.alone⟩
      · obtain ⟨skel, hattached⟩ := hattached
        exact ⟨skel, List.mem_append_left _ hattached⟩
      · exact fun _ => (hskel hh.alone).trans hh.skel
    · have hworks := works_created hh.works skel (.stackTracer tracerArgs skel) failed
      have hnotFreed := notFreed_created hh.notFreed skel (.stackTracer tracerArgs skel) failed
      have hno (skel' : Option EptracerBpf) (failed' : Int32) :
          ⟨.pthreadCreate (.syscallTracer skel'), failed'⟩ ∉ h ++ [⟨.getSkel, skel⟩] ++
            [⟨.pthreadCreate (.stackTracer tracerArgs skel), failed⟩] := by
        simp [hnone]
      split
      next hfailed =>
        refine failMain_wp hworks (.inr ?_) fun obj _ => ⟨hnotFreed, fun skel => hno skel 0⟩
        exact ⟨_, List.mem_append_right _ List.mem_cons_self, _, failed, hfailed, rfl⟩
      next =>
        refine startSyscallTracer_wp ⟨hworks, hnotFreed, ?_, ?_, ?_, ?_, ?_⟩ hno
        · exact List.mem_append_left _ (List.mem_append_left _ hh.parsed)
        · obtain ⟨skel, hattached⟩ := hattached
          exact ⟨skel, List.mem_append_left _ (List.mem_append_left _ hattached)⟩
        · exact fun halone => absurd ⟨_, rfl⟩
            (halone _ (List.mem_append_right _ List.mem_cons_self))
        · intro start hmem
          simp only [List.mem_append, hnone, List.mem_singleton, Event.mk.injEq, reduceCtorEq,
            false_and, false_or, EptracerCall.pthreadCreate.injEq] at hmem
          rw [hmem.1]
          exact List.mem_cons_self
        · exact fun h => absurd h hasked
  next =>
    refine startSyscallTracer_wp ⟨hh.works, hh.notFreed, hh.parsed, hattached, fun _ => hh.skel,
      fun start hmem => absurd hmem hnone, fun _ _ => rfl⟩ fun skel failed => hnone

theorem attachMain_wp {args : Options} {tracerArgs : StackTracerArgs}
    {h : History eptracerCalls} (hh : Loaded args h) (hstored : Stored h) :
    (attachMain args tracerArgs).wp mainContract mainEnds h := by
  simp only [attachMain, perform, Proc.perform, Proc.call_bind, Proc.ret_bind]
  refine Proc.wp_call.mpr fun skel hskel => ⟨trivial, Proc.wp_call.mpr fun errno _ => ?_⟩
  obtain rfl : skel = skelAfter h := hskel hh.alone
  have hread : Loaded args (h ++ [⟨.getSkel, skelAfter h⟩]) := hh.snoc trivial
  have hattach := hread.snoc (e := ⟨.attachSkeleton (skelAfter h), errno⟩) trivial
  refine ⟨⟨⟨hh.skel, hread.alone, hread.notFreed⟩, ?_⟩, ?_⟩
  · obtain ⟨args, spawn, region, fd, update, hparsed, hspawn, hregion, hupdate, hok⟩ := hstored
    exact ⟨args, spawn, region, fd, update, List.mem_append_left _ hparsed,
      List.mem_append_left _ hspawn, hregion, List.mem_append_left _ hupdate, hok⟩
  · split
    next => exact hattach.failMain_wp
    next herrno =>
      obtain rfl : errno = 0 := by simpa using herrno
      exact startTracers_wp hattach
        ⟨skelAfter h, List.mem_append_right _ List.mem_cons_self⟩

theorem initializeArrayProc_wp {args : Options} {fd : Int32} {identifier : CStr}
    {h : History eptracerCalls} (hh : Loaded args h) :
    (initializeArrayProc fd identifier).wp mainContract (fun bpfError h' => Loaded args h' ∧
      (∀ e ∈ h, e ∈ h') ∧ (¬ bpfError < 0 →
        ⟨.mapUpdateElem fd (strncpy maxProgramStringLen identifier), bpfError⟩ ∈ h')) h := by
  simp only [initializeArrayProc, perform, Proc.perform, Proc.call_bind, Proc.ret_bind]
  split
  next =>
    refine fun _ _ => ⟨trivial, ?_, fun e he => List.mem_append_left _ he, ?_⟩
    · exact hh.snoc (e := ⟨.logError _, _⟩) trivial
    · exact fun h => absurd (by decide) h
  next =>
    refine Proc.wp_call.mpr fun bpfError _ => ⟨trivial, ?_⟩
    split
    next hneg =>
      refine fun _ _ => ⟨trivial, ?_, fun e he => ?_, ?_⟩
      · exact (hh.snoc (e := ⟨.mapUpdateElem _ _, bpfError⟩) trivial).snoc
          (e := ⟨.logError _, _⟩) trivial
      · exact List.mem_append_left _ (List.mem_append_left _ he)
      · exact fun h => absurd hneg h
    next =>
      exact ⟨hh.snoc (e := ⟨.mapUpdateElem _ _, _⟩) trivial,
        fun e he => List.mem_append_left _ he, fun _ => List.mem_append_right _ List.mem_cons_self⟩

theorem targetMain_wp {args : Options} {tracerArgs : StackTracerArgs}
    {h : History eptracerCalls} (hh : Loaded args h) :
    (targetMain args tracerArgs).wp mainContract mainEnds h := by
  simp only [targetMain, getPidToTraceProc, perform, Proc.perform, Proc.call_bind, Proc.ret_bind]
  refine Proc.wp_call.mpr fun spawn _ => ⟨hh.alone, ?_⟩
  have hspawn (hexit : getPidToTrace args.toArguments spawn.calls spawn.pidToTrace ≠ .exit) :
      Loaded args (h ++ [⟨.spawn args.toArguments, spawn⟩]) :=
    hh.snoc_of_quiet ⟨by simp [Creates], fun h => hexit h.choose_spec.1, by simp [Frees],
      by simp [Clears]⟩ (by simp [Publishes])
  cases hresult : getPidToTrace args.toArguments spawn.calls spawn.pidToTrace with
  | exit => exact .of_works hh.works ⟨hresult, rfl⟩
  | null | executed =>
      have hloaded := hspawn (by simp [hresult])
      exact fun _ _ => ⟨trivial, (hloaded.snoc (e := ⟨.printPid none, ()⟩) trivial).failMain_wp⟩
  | str region =>
      have hprint := (hspawn (by simp [hresult])).snoc
        (e := ⟨.printPid (some (regionStr region)), ()⟩) trivial
      refine fun _ _ => ⟨trivial, fun skel hskel => ⟨trivial, fun fd _ => ⟨?_, ?_⟩⟩⟩
      · obtain rfl : skel = _ := hskel hprint.alone
        exact ⟨hprint.skel, (hprint.snoc (e := ⟨.getSkel, _⟩) trivial).alone,
          (hprint.snoc (e := ⟨.getSkel, _⟩) trivial).notFreed⟩
      · have hread := (hprint.snoc (e := ⟨.getSkel, skel⟩) trivial).snoc
          (e := ⟨.mapFd .programMap skel, fd⟩) trivial
        refine Proc.wp_bind_iff.mpr (Proc.wp_mono ?_ (initializeArrayProc_wp hread))
        rintro bpfError h' ⟨hloaded, hmem, hstored⟩
        split
        next => exact hloaded.failMain_wp
        next hok =>
          refine attachMain_wp hloaded ⟨args, spawn, region, fd, bpfError, hloaded.parsed, ?_,
            hresult, hstored hok, hok⟩
          exact hmem _ (by simp)

/-! ## The first stages -/

theorem loaderCall_quiet {e : EptracerEvent} (he : LoaderCall e.call) :
    ¬ Creates e ∧ ¬ Fails e ∧ ¬ Publishes e ∧ ¬ Clears e := by
  obtain ⟨c, a⟩ := e
  cases c with
  | calloc | openSkeleton | loadSkeleton | destroySkeleton | freeObject =>
      simp [Creates, Fails, EndsWith, Publishes, Clears]
  | _ => exact absurd he id

/-- Before the object is loaded. -/
structure Unloaded (args : Options) (h : History eptracerCalls) : Prop extends Calm h where
  parsed : ⟨.argparseParse, .options args⟩ ∈ h
  notPublished : ∀ e ∈ h, ¬ Publishes e

theorem Unloaded.skel {args : Options} {h : History eptracerCalls} (hh : Unloaded args h) :
    skelAfter h = none := by
  have happend := skelAfter_append (h := []) (l := h)
    fun e he => ⟨hh.notPublished e he, hh.notCleared e he⟩
  rw [List.nil_append] at happend
  exact happend

theorem Unloaded.snoc {args : Options} {h : History eptracerCalls} (hh : Unloaded args h)
    {e : EptracerEvent} (he : PlainCall e.call) : Unloaded args (h ++ [e]) where
  toCalm := hh.toCalm.snoc he.quiet.1
  parsed := List.mem_append_left _ hh.parsed
  notPublished := forall_mem_snoc hh.notPublished he.quiet.2

/-- What `main` does for the skeleton is one of its executions. -/
theorem openAndLoad_main {args : Options} {h : History eptracerCalls} (hh : Unloaded args h) :
    openAndLoad.wp mainContract (fun r h' => ∃ l, h' = h ++ l ∧ AllOrNothingHeld l r ∧
      (∀ e ∈ l, LoaderCall e.call) ∧ (∀ obj, r = .ok obj → ∀ e ∈ l, ¬ Frees e)) h := by
  have hcalls {l : History eptracerCalls} {q : EptracerProc (Except Int32 EptracerBpf)}
      (he : openAndLoad.Exec l q) : q.wp skeletonContract (fun r h => AllOrNothingHeld h r) l ∧
        Trace.Each SkeletonGuar l := by
    exact Proc.wp_exec openAndLoad_wp he fun _ _ _ _ => trivial
  have hall {l : History eptracerCalls} (hl : Trace.Each SkeletonGuar l) :
      ∀ e ∈ l, LoaderCall e.call := by
    intro e he
    obtain ⟨before, after, heq⟩ := List.append_of_mem he
    exact (hl before e after heq).call
  refine Proc.wp_of_exec openAndLoad_loopFree ?_ ?_ ?_
  · intro l q e q' he hs
    have hl := (hcalls he).2
    have hguar := (hcalls (he.snoc hs)).2 l e [] rfl
    obtain ⟨c, a⟩ := e
    cases c with
    | freeObject =>
        have hcreate := List.forall_mem_append.mpr
          ⟨hh.alone, fun e he => (loaderCall_quiet (hall hl e he)).1⟩
        refine ⟨?_, .inr ⟨hcreate, ?_⟩, ?_, .inl hcreate⟩
        · exact List.forall_mem_append.mpr ⟨hh.notFreed, hguar.once rfl⟩
        · exact List.forall_mem_append.mpr ⟨hh.notPublished,
            fun e he => (loaderCall_quiet (hall hl e he)).2.2.1⟩
        · exact fun skel hmem => hcreate _ hmem ⟨_, rfl⟩
    | calloc | openSkeleton | loadSkeleton | destroySkeleton => trivial
    | _ => exact absurd hguar.call id
  · intro l r he
    obtain ⟨hr, hl⟩ := hcalls he
    refine ⟨l, rfl, hr, hall hl, ?_⟩
    rintro obj rfl
    exact hr.2.1.notFreed
  · exact fun l status he => absurd (hcalls he).1 id

/-- `load_BPF_program` returns what it leaves in `skel`: an object that is all
there, or null. -/
theorem loadBPFProgram_wp {args : Options} {h : History eptracerCalls} (hh : Unloaded args h) :
    loadBPFProgram.wp mainContract (fun skel h' => skel = skelAfter h' ∧
      (Loaded args h' ∨
        (Alone h' ∧ (∀ e ∈ h', ¬ Fails e) ∧ skelAfter h' = none))) h := by
  simp only [loadBPFProgram, perform, Proc.perform, Proc.call_bind, Proc.ret_bind]
  refine Proc.wp_call.mpr fun skel hskel => ⟨trivial, ?_⟩
  obtain rfl : skel = none := (hskel hh.alone).trans hh.skel
  have hread : Unloaded args (h ++ [⟨.getSkel, none⟩]) := hh.snoc trivial
  refine Proc.wp_bind_iff.mpr (Proc.wp_mono ?_ (openAndLoad_main hread))
  rintro r h' ⟨l, rfl, hr, hloader, hfree⟩
  have halone : Alone (h ++ [⟨.getSkel, none⟩] ++ l) := List.forall_mem_append.mpr
    ⟨hread.alone, fun e he => (loaderCall_quiet (hloader e he)).1⟩
  have hworks : ∀ e ∈ h ++ [⟨.getSkel, none⟩] ++ l, ¬ Fails e := List.forall_mem_append.mpr
    ⟨hread.works, fun e he => (loaderCall_quiet (hloader e he)).2.1⟩
  have hnotCleared : ∀ e ∈ h ++ [⟨.getSkel, none⟩] ++ l, ¬ Clears e :=
    List.forall_mem_append.mpr
      ⟨hread.notCleared, fun e he => (loaderCall_quiet (hloader e he)).2.2.2⟩
  have hset (skel : Option EptracerBpf) :
      skelAfter (h ++ [⟨.getSkel, none⟩] ++ l ++ [⟨.setSkel skel, ()⟩] ++ [⟨.getSkel, skel⟩]) =
        skel := by
    rw [skelAfter_append (by simp [Publishes, Clears]), skelAfter_setSkel]
  cases r with
  | error errno =>
      refine fun _ _ => ⟨trivial, fun skel hskel => ⟨trivial, ?_⟩⟩
      obtain rfl : skel = none := (hskel (forall_mem_snoc halone (by simp [Creates]))).trans
        (skelAfter_setSkel _ none)
      refine ⟨(hset none).symm, .inr ⟨?_, ?_, hset none⟩⟩
      · exact forall_mem_snoc (forall_mem_snoc halone (by simp [Creates])) (by simp [Creates])
      · exact forall_mem_snoc (forall_mem_snoc hworks (by simp [Fails, EndsWith]))
          (by simp [Fails, EndsWith])
  | ok obj =>
      obtain ⟨skeleton⟩ := obj
      obtain rfl : skeleton = true := hr.1
      have hcalm : Calm (h ++ [⟨.getSkel, none⟩] ++ l) := ⟨halone, hworks,
        List.forall_mem_append.mpr ⟨hread.notFreed, hfree _ rfl⟩, hnotCleared⟩
      refine fun _ _ => ⟨⟨⟨rfl, hcalm.alone, hcalm.notFreed⟩, hnotCleared⟩, fun skel hskel =>
        ⟨trivial, ?_⟩⟩
      obtain rfl : skel = some ⟨true⟩ := (hskel (forall_mem_snoc halone (by simp [Creates]))).trans
        (skelAfter_setSkel _ _)
      refine ⟨(hset _).symm, .inl ⟨(hcalm.snoc ?_).snoc (PlainCall.quiet ?_).1, ?_, hset _⟩⟩
      · simp [quiet_iff, Creates, Fails, EndsWith, Frees, Clears, Except.toOption]
      · trivial
      · exact List.mem_append_left _ (List.mem_append_left _ (List.mem_append_left _ hread.parsed))

theorem loadMain_wp {args : Options} {tracerArgs : StackTracerArgs} {h : History eptracerCalls}
    (hh : Unloaded args h) (hstream : HasStream h) :
    (loadMain args tracerArgs).wp mainContract mainEnds h := by
  simp only [loadMain, perform, Proc.perform, Proc.call_bind, Proc.ret_bind]
  refine fun _ _ => ⟨hstream, ?_⟩
  refine Proc.wp_bind_iff.mpr (Proc.wp_mono ?_ (loadBPFProgram_wp (hh.snoc trivial)))
  rintro skel h' ⟨rfl, hloaded | ⟨halone, hworks, hskel⟩⟩
  · refine fun _ _ => ⟨?_, Proc.wp_call.mpr fun skel hskel => ⟨trivial, ?_⟩⟩
    · rw [hloaded.skel]
      exact ⟨⟨rfl, hloaded.alone, hloaded.notFreed⟩, hloaded.notCleared⟩
    · have hset : Loaded args (h' ++ [⟨.setSkel (skelAfter h'), ()⟩]) := by
        refine ⟨hloaded.toCalm.snoc ?_, List.mem_append_left _ hloaded.parsed, ?_⟩
        · simp [quiet_iff, Creates, Fails, EndsWith, Frees, Clears, hloaded.skel]
        · rw [skelAfter_setSkel]
          exact hloaded.skel
      obtain rfl : skel = _ := hskel hset.alone
      rw [if_neg (by simp [hset.skel])]
      exact targetMain_wp (hset.snoc (e := ⟨.getSkel, _⟩) trivial)
  · rw [hskel]
    refine fun _ _ => ⟨trivial, fun skel hread => ⟨trivial, ?_⟩⟩
    have hset : skelAfter (h' ++ [⟨.setSkel none, ()⟩]) = none := skelAfter_setSkel _ none
    obtain rfl : skel = none := (hread (forall_mem_snoc halone (by simp [Creates]))).trans hset
    have halone : Alone (h' ++ [⟨.setSkel none, ()⟩] ++ [⟨.getSkel, none⟩]) :=
      forall_mem_snoc (forall_mem_snoc halone (by simp [Creates])) (by simp [Creates])
    refine failMain_wp (forall_mem_snoc (forall_mem_snoc hworks ?_) ?_) (.inl halone)
      fun obj hobj => ?_
    · simp [Fails, EndsWith]
    · simp [Fails, EndsWith]
    · have hnone := hobj halone
      rw [skelAfter_append (by simp [Publishes, Clears]), hset] at hnone
      cases hnone

theorem logMain_wp {args : Options} {tracerArgs : StackTracerArgs} {h : History eptracerCalls}
    (hh : Unloaded args h) : (logMain args tracerArgs).wp mainContract mainEnds h := by
  simp only [logMain, perform, Proc.perform, Proc.call_bind, Proc.ret_bind]
  split
  next =>
    refine fun opened _ => ⟨hh.alone, ?_⟩
    cases opened with
    | false =>
        refine fun _ _ => ⟨trivial, .of_works_log hh.works ?_ _⟩
        exact ⟨rfl, rfl⟩
    | true =>
        have hopen : Unloaded args (h ++ [⟨.fopen args.logFile, true⟩]) :=
          ⟨hh.toCalm.snoc (by simp [quiet_iff, Creates, Fails, EndsWith, Frees, Clears]),
            List.mem_append_left _ hh.parsed, forall_mem_snoc hh.notPublished (by simp [Publishes])⟩
        refine Proc.wp_call.mpr fun added _ => ⟨hopen.alone, ?_⟩
        split
        next hadded =>
          refine fun _ _ => ⟨trivial, .of_works_log hopen.works ?_ _⟩
          exact ⟨hadded, rfl⟩
        next hadded =>
          refine loadMain_wp ⟨hopen.toCalm.snoc ⟨by simp [Creates], fun h => hadded h.choose_spec.1,
            by simp [Frees], by simp [Clears]⟩, List.mem_append_left _ hopen.parsed,
            forall_mem_snoc hopen.notPublished (by simp [Publishes])⟩ ?_
          refine ⟨args, List.mem_append_left _ hopen.parsed, fun level => ?_⟩
          have hopened : fAfter (h ++ [⟨.fopen args.logFile, true⟩] ++ [⟨.logAddFp, added⟩]) =
              true := by simp [fAfter]
          rw [hopened, libbpfPrintFn]
          split_ifs <;> simp
  next hnone =>
    refine loadMain_wp hh ⟨args, hh.parsed, fun level => ?_⟩
    rw [libbpfPrintFn, if_neg hnone]
    split_ifs <;> simp

theorem mainProc_wp : mainProc.wp mainContract mainEnds [] := by
  simp only [mainProc, perform, Proc.perform, Proc.call_bind, Proc.ret_bind]
  refine fun _ _ => ⟨trivial, Proc.wp_call.mpr fun online _ => ⟨?_, ?_⟩⟩
  · simp [mainContract, mainGuar, Alone, Creates]
  have hcalm : Calm [⟨.signal, ()⟩] := by
    refine ⟨?_, ?_, ?_, ?_⟩ <;>
    · simp [Alone, Creates, Fails, EndsWith, Frees, Clears]
  split
  next herr =>
    refine fun _ _ => ⟨trivial, .of_works_log hcalm.works ?_ _⟩
    exact ⟨herr, rfl⟩
  next herr =>
    have hcalm := hcalm.snoc (e := ⟨.parseCpuMaskFile, online⟩) ⟨by simp [Creates],
      fun h => herr h.choose_spec.1, by simp [Frees], by simp [Clears]⟩
    refine Proc.wp_call.mpr fun numCpus _ => ⟨hcalm.alone, ?_⟩
    split
    next hnum =>
      refine fun _ _ => ⟨trivial, .of_works_log hcalm.works ?_ _⟩
      exact ⟨hnum, rfl⟩
    next hnum =>
      have hcalm := hcalm.snoc (e := ⟨.numPossibleCpus, numCpus⟩) ⟨by simp [Creates],
        fun h => hnum h.choose_spec.1, by simp [Frees], by simp [Clears]⟩
      refine Proc.wp_call.mpr fun parsed _ => ⟨⟨hcalm.alone, by simp⟩, ?_⟩
      cases parsed with
      | exits status => exact .of_works hcalm.works rfl
      | options args =>
          refine logMain_wp ⟨hcalm.snoc ?_, by simp, by simp [Publishes]⟩
          simp [quiet_iff, Creates, Fails, EndsWith, Frees, Clears]

/-! ## The process -/

/-- Only `main` creates threads. -/
theorem creates_guar {t : Thread} {b : Bool} {h : History eptracerCalls} {e : EptracerEvent}
    (hguar : (contracts t b).guar h e) (hcreates : Creates e) : t = .main ∧ b = false := by
  obtain ⟨c, a⟩ := e
  obtain ⟨start, rfl⟩ := hcreates
  cases b with
  | true => cases t <;> exact absurd hguar.1 id
  | false =>
      cases t with
      | main => exact ⟨rfl, rfl⟩
      | stackTracer | syscallTracer => exact absurd hguar id

/-- A thread keeps its contract when it is started by a call that was guaranteed. -/
theorem starts_wp {t : Thread} {b : Bool} {h : History eptracerCalls} {e : EptracerEvent}
    {u : Thread} {body : EptracerProc Unit} (hguar : (contracts t b).guar h e)
    (hstarts : eptracer.starts e = some (u, body)) :
    body.wp (contracts u false) (fun _ _ => True) [] := by
  obtain ⟨c, a⟩ := e
  cases c with
  | pthreadCreate start =>
      obtain ⟨rfl, rfl⟩ := creates_guar hguar ⟨start, rfl⟩
      have hready : Ready h start := hguar
      simp only [eptracer, startedBy, Option.ite_none_right_eq_some, Option.some.injEq,
        Prod.mk.injEq] at hstarts
      obtain ⟨-, rfl, rfl⟩ := hstarts
      cases start with
      | stackTracer args skel =>
          obtain rfl : skel = some ⟨true⟩ := hready.skel (hready.first rfl)
          exact stackTracerProc_wp args
      | syscallTracer skel => exact syscallTracerProc_wp skel
  | _ => cases hstarts

theorem body_wp : eptracer.body.wp mainContract (fun _ _ => True) [] :=
  Proc.wp_bind_iff.mpr mainProc_wp

end EPtracer
