import EPtracer.Stack.Delivery

/-!
# What the stack tracer holds

On its way to the loop that polls, `stack_tracer` opens a perf event on each
online CPU and makes a link for it.  On each of the four ways out the call of
`cleanup` is commented out, and nothing is released.

The state of `stackTracer` has the account of that (`SetUp.held`).  Either all the
CPUs of a loop work, or there is a first one that does not (`setUpCpus_cases`).
`all_or_nothing_iff` says when a failure has nothing to release.
-/

namespace EPtracer

variable {calls : SetUpCalls} {args : StackTracerArgs}

/-! ## All or nothing -/

/-- The online ones of some CPUs. -/
def StackTracerArgs.onlineOf (args : StackTracerArgs) (cpus : List Nat) : List Nat :=
  cpus.filter fun cpu => args.onlineMask[cpu]? = some true

/-- The CPUs to be set up. -/
def StackTracerArgs.onlineCpus (args : StackTracerArgs) : List Nat :=
  args.onlineOf (List.range args.numCpus)

/-- Either all of the CPUs are set up, or nothing is held. -/
structure AllOrNothing (calls : SetUpCalls) (args : StackTracerArgs) : Prop where
  /-- The mask is read inside. -/
  maskReads : ∀ i ∈ (lastState (stackTracer calls args)).maskReads, i < args.numOnlineCpus
  /-- The loop that polls is reached with an event and a link on each online CPU, and
  nothing else. -/
  polling : ∀ st, stackTracer calls args = .ok st →
    st.held = ⟨args.onlineCpus, args.onlineCpus⟩ ∧ ∀ cpu, st.Attached cpu ↔ cpu ∈ args.onlineCpus
  /-- An earlier return leaves nothing behind. -/
  returned : ∀ st, stackTracer calls args = .error st → st.held = .empty

/-! ## One CPU -/

/-- Each turn reads the mask where it has an entry. -/
theorem setUpCpu_maskReads (calls : SetUpCalls) (args : StackTracerArgs) (cpu : Nat) {st : SetUp}
    (h : ∀ i ∈ st.maskReads, i < args.numOnlineCpus) :
    ∀ i ∈ (lastState (setUpCpu calls args cpu st)).maskReads, i < args.numOnlineCpus := by
  simp only [setUpCpu]
  split
  next => exact h
  next hlt =>
    have hread : ∀ i ∈ st.maskReads ++ [cpu], i < args.numOnlineCpus := by
      intro i hi
      rcases List.mem_append.mp hi with hi | hi
      · exact h i hi
      · rw [List.mem_singleton.mp hi]
        exact Nat.not_le.mp hlt
    split
    next => exact hread
    next =>
      split
      next => exact hread
      next =>
        split
        next => exact hread
        next => exact hread

/-! ## The loop over the CPUs -/

theorem setUpCpus_maskReads (calls : SetUpCalls) (args : StackTracerArgs) (cpus : List Nat)
    {st : SetUp} (h : ∀ i ∈ st.maskReads, i < args.numOnlineCpus) :
    ∀ i ∈ (lastState (setUpCpus calls args cpus st)).maskReads, i < args.numOnlineCpus := by
  induction cpus generalizing st with
  | nil => exact h
  | cons cpu cpus ih =>
      have hcpu := setUpCpu_maskReads calls args cpu h
      rw [setUpCpus]
      cases hcall : setUpCpu calls args cpu st with
      | ok st' =>
          rw [hcall] at hcpu
          exact ih hcpu
      | error st' =>
          rw [hcall] at hcpu
          exact hcpu

theorem StackTracerArgs.onlineOf_cons_of_online {cpu : Nat} (h : args.Online cpu)
    (cpus : List Nat) : args.onlineOf (cpu :: cpus) = cpu :: args.onlineOf cpus := by
  have hmask : args.onlineMask[cpu]? = some true := h
  exact List.filter_cons_of_pos (decide_eq_true hmask)

theorem StackTracerArgs.onlineOf_cons_of_offline {cpu : Nat} (h : ¬ args.Online cpu)
    (cpus : List Nat) : args.onlineOf (cpu :: cpus) = args.onlineOf cpus := by
  have hmask : ¬ args.onlineMask[cpu]? = some true := h
  exact List.filter_cons_of_neg fun h => hmask (of_decide_eq_true h)

/-- The loop sets up all online CPUs, or it ends at the first that does not
work and holds what the ones before it made. -/
theorem setUpCpus_cases (calls : SetUpCalls) (args : StackTracerArgs) (cpus : List Nat)
    (st : SetUp) :
    ((∀ cpu ∈ args.onlineOf cpus, calls.Works cpu) ∧
      ∃ st', setUpCpus calls args cpus st = .ok st' ∧
        st'.held = ⟨st.held.events ++ args.onlineOf cpus, st.held.links ++ args.onlineOf cpus⟩) ∨
    ∃ before cpu after, args.onlineOf cpus = before ++ cpu :: after ∧
      (∀ c ∈ before, calls.Works c) ∧ ¬ calls.Works cpu ∧
      ∃ st', setUpCpus calls args cpus st = .error st' ∧
        st'.held = ⟨st.held.events ++ (before ++ calls.leftOpen cpu), st.held.links ++ before⟩ := by
  induction cpus generalizing st with
  | nil =>
      refine .inl ⟨fun cpu h => absurd h List.not_mem_nil, st, rfl, ?_⟩
      simp [StackTracerArgs.onlineOf]
  | cons cpu cpus ih =>
      rw [setUpCpus]
      rcases setUpCpu_cases calls args cpu st with
        ⟨hoffline, st', hcall, -, hheld⟩ | ⟨honline, hworks, st', hcall, -, hheld⟩ |
        ⟨honline, hfails, st', hcall, hheld⟩
      · rw [hcall, StackTracerArgs.onlineOf_cons_of_offline hoffline, ← hheld]
        exact ih st'
      · rw [hcall, StackTracerArgs.onlineOf_cons_of_online honline]
        rcases ih st' with ⟨hall, st'', hok, hrest⟩ |
          ⟨before, c, after, hsplit, hbefore, hc, st'', herror, hrest⟩
        · refine .inl ⟨List.forall_mem_cons.mpr ⟨hworks, hall⟩, st'', hok, hrest.trans ?_⟩
          simp only [hheld, List.append_assoc, List.singleton_append]
        · refine .inr ⟨cpu :: before, c, after, by rw [hsplit, List.cons_append],
            List.forall_mem_cons.mpr ⟨hworks, hbefore⟩, hc, st'', herror, hrest.trans ?_⟩
          simp only [hheld, List.append_assoc, List.cons_append, List.nil_append]
      · rw [hcall, StackTracerArgs.onlineOf_cons_of_online honline]
        refine .inr ⟨[], cpu, args.onlineOf cpus, rfl, ?_, hfails, st', rfl, hheld.trans ?_⟩
        · exact fun c h => absurd h List.not_mem_nil
        · simp only [List.nil_append, List.append_nil]

/-! ## When it is so -/

/-- Every call succeeds. -/
structure SetUpSucceeds (calls : SetUpCalls) (args : StackTracerArgs) : Prop where
  cpus : ∀ cpu ∈ args.onlineCpus, calls.Works cpu
  symbolizer : calls.symbolizerNew = true
  perfBuffer : calls.perfBufferNew = true

/-- The first call for a CPU fails, if there is one. -/
def FailsAtOnce (calls : SetUpCalls) (args : StackTracerArgs) : Prop :=
  ∀ cpu, args.onlineCpus.head? = some cpu → calls.perfEventOpen cpu < 0

theorem stackTracer_maskReads (calls : SetUpCalls) (args : StackTracerArgs) :
    ∀ i ∈ (lastState (stackTracer calls args)).maskReads, i < args.numOnlineCpus := by
  have hinit : ∀ i ∈ (SetUp.init args.numCpus).maskReads, i < args.numOnlineCpus :=
    fun i hi => absurd hi List.not_mem_nil
  have hloop := setUpCpus_maskReads calls args (List.range args.numCpus) hinit
  rw [stackTracer]
  cases hcpus : setUpCpus calls args (List.range args.numCpus) (.init args.numCpus) with
  | error st =>
      rw [hcpus] at hloop
      exact hloop
  | ok st =>
      rw [hcpus] at hloop
      simp only
      split
      next => exact hloop
      next =>
        split
        next => exact hloop
        next => exact hloop

theorem attached_iff_online {st : SetUp} (h : stackTracer calls args = .ok st) (cpu : Nat) :
    st.Attached cpu ↔ cpu ∈ args.onlineCpus := by
  rw [stackTracer_attached_iff h, StackTracerArgs.onlineCpus, StackTracerArgs.onlineOf,
    List.mem_filter, List.mem_range, decide_eq_true_iff, StackTracerArgs.Online]

/-- A tracer that returns has nothing to release if the first call failed. -/
theorem allOrNothing_of_returned {st : SetUp} (hrun : stackTracer calls args = .error st) :
    AllOrNothing calls args ↔ st.held = .empty := by
  constructor
  · exact fun h => h.returned st hrun
  · intro hempty
    refine ⟨stackTracer_maskReads calls args, fun st' hpoll => ?_, fun st' herror => ?_⟩
    · rw [hrun] at hpoll
      cases hpoll
    · obtain rfl := Except.error.inj (hrun.symm.trans herror)
      exact hempty

/-- When all CPUs work, a later failure leaves all of them held. -/
theorem allOrNothing_of_works {st : SetUp}
    (hrun : setUpCpus calls args (List.range args.numCpus) (.init args.numCpus) = .ok st)
    (hworks : ∀ cpu ∈ args.onlineCpus, calls.Works cpu)
    (hheld : st.held = ⟨args.onlineCpus, args.onlineCpus⟩) :
    AllOrNothing calls args ↔ SetUpSucceeds calls args ∨ FailsAtOnce calls args := by
  rcases Classical.em (calls.symbolizerNew = true ∧ calls.perfBufferNew = true) with hrest | hrest
  · have hpoll := stackTracer_eq_ok_iff.mpr ⟨hrun, hrest⟩
    refine iff_of_true ⟨stackTracer_maskReads calls args, ?_, ?_⟩
      (.inl ⟨hworks, hrest.1, hrest.2⟩)
    · intro st' hpoll'
      obtain rfl := Except.ok.inj (hpoll.symm.trans hpoll')
      exact ⟨hheld, attached_iff_online hpoll⟩
    · intro st' herror
      rw [hpoll] at herror
      cases herror
  · have herror : stackTracer calls args = .error st := by
      rw [stackTracer, hrun]
      dsimp only
      cases hsymbolizer : calls.symbolizerNew with
      | false => rfl
      | true =>
          cases hbuffer : calls.perfBufferNew with
          | false => rfl
          | true => exact absurd ⟨hsymbolizer, hbuffer⟩ hrest
    have hsucceeds : ¬ SetUpSucceeds calls args := fun h => hrest ⟨h.symbolizer, h.perfBuffer⟩
    rw [allOrNothing_of_returned herror, hheld, or_iff_right hsucceeds, FailsAtOnce]
    cases honline : args.onlineCpus with
    | nil => exact iff_of_true rfl fun cpu h => absurd h (by simp)
    | cons cpu cpus =>
        have hfirst := hworks cpu (by rw [honline]; exact List.mem_cons_self)
        refine iff_of_false (fun h => ?_) fun h => hfirst.1 (h cpu rfl)
        cases h

/-- When a CPU fails, what is held are the ones before it, and its own event. -/
theorem allOrNothing_of_fails {st : SetUp}
    (hrun : setUpCpus calls args (List.range args.numCpus) (.init args.numCpus) = .error st)
    {before after : List Nat} {cpu : Nat} (hsplit : args.onlineCpus = before ++ cpu :: after)
    (hbefore : ∀ c ∈ before, calls.Works c) (hcpu : ¬ calls.Works cpu)
    (hheld : st.held = ⟨before ++ calls.leftOpen cpu, before⟩) :
    AllOrNothing calls args ↔ SetUpSucceeds calls args ∨ FailsAtOnce calls args := by
  have herror : stackTracer calls args = .error st := by rw [stackTracer, hrun]
  have hsucceeds : ¬ SetUpSucceeds calls args := by
    intro h
    exact hcpu (h.cpus cpu (by rw [hsplit]; exact List.mem_append_cons_self))
  rw [allOrNothing_of_returned herror, hheld, or_iff_right hsucceeds, FailsAtOnce, hsplit]
  cases before with
  | nil =>
      rw [SetUpCalls.leftOpen]
      split
      next hopen =>
        refine iff_of_true rfl fun c hc => ?_
        cases hc
        exact hopen
      next hopen =>
        refine iff_of_false (fun h => ?_) fun h => hopen (h cpu rfl)
        cases h
  | cons c before =>
      have hfirst := hbefore c List.mem_cons_self
      refine iff_of_false (fun h => ?_) fun h => hfirst.1 (h c rfl)
      cases h

/-- **All or nothing.**  The tracer sets up all CPUs or holds nothing exactly if
every call succeeds, or the first one fails. -/
theorem all_or_nothing_iff (calls : SetUpCalls) (args : StackTracerArgs) :
    AllOrNothing calls args ↔ SetUpSucceeds calls args ∨ FailsAtOnce calls args := by
  rcases setUpCpus_cases calls args (List.range args.numCpus) (.init args.numCpus) with
    ⟨hworks, st, hrun, hheld⟩ | ⟨before, cpu, after, hsplit, hbefore, hcpu, st, hrun, hheld⟩
  · exact allOrNothing_of_works hrun hworks hheld
  · exact allOrNothing_of_fails hrun hsplit hbefore hcpu hheld

/-- The event of CPU 1 cannot be opened, and that of CPU 0 stays open. -/
theorem first_cpu_left_open :
    ¬ ∀ (calls : SetUpCalls) (args : StackTracerArgs), AllOrNothing calls args := by
  intro h
  have hreturned := (h ⟨fun cpu => if cpu = 1 then -1 else 3, fun _ => true, true, true⟩
    twoCpus).returned _ rfl
  exact absurd hreturned (by decide)

end EPtracer
