import EPtracer.Lib.RingAccount
import EPtracer.Syscall.Debugger

/-!
# A buffer nobody polls, and one that is drained

`sys_enter_multiplexer` is attached whatever the user asks for, and
`syscall_tracer` polls only with `--show-syscall`.  Its loop ends for good at
the first error of a poll.  From then on the program goes on reporting into a
buffer of eight records, and it kills a debugger only with a record in hand.
`unpolled_kills` bounds what is left of the protection.

`nothing_lost` is the other side.  When the calls have returned, polls bring
everything that was reported to the handler.
-/

namespace EPtracer

open RingBuffer

variable {b : Build} {entry : ProgramName} {cap : Nat}

/-- The effect is a signal. -/
def Effect.isSignal : Effect → Bool
  | .sendSignal _ => true
  | .printk _ _ => false

/-- The signals that were sent, each with the call it answers. -/
def kills (s : TracerState) : List (Nat × Effect) := s.effectsIn Effect.isSignal

/-- A call is answered with one signal at most, and has its record by then. -/
theorem sysEnterMultiplexer_onceSubmitted (b : Build) (entry : ProgramName) (ctx : SysEnter) :
    (sysEnterMultiplexer b entry ctx).OnceSubmitted Effect.isSignal := by
  rcases sysEnterMultiplexer_cases b entry ctx with
    ⟨-, hp⟩ | ⟨-, nr, -, hp⟩ | ⟨-, -, hp | ⟨fmt, args, hp⟩⟩ <;> rw [hp]
  · refine Prog.onceSubmitted_of_none fun l q e he hmem => ?_
    rw [(Prog.Exec.of_ret he).1] at hmem
    simp at hmem
  · refine Prog.produce_onceSubmitted _ fun l q e he hmem _ => ?_
    cases nr with
    | nrPtrace =>
        cases he with
        | refl => simp at hmem
        | step hs he =>
            cases hs
            exact (Prog.Exec.of_ret he).2
    | _ => exact (Prog.Exec.of_ret he).2
  · refine Prog.onceSubmitted_of_none fun l q e he hmem => ?_
    rw [(Prog.Exec.of_ret he).1] at hmem
    simp at hmem
  · refine Prog.onceSubmitted_of_none fun l q e he hmem => ?_
    cases he with
    | refl => simp at hmem
    | step hs he =>
        cases hs
        rw [(Prog.Exec.of_ret he).1] at hmem
        obtain rfl : e = .printk fmt args := by simpa using hmem
        rfl

theorem mem_owners_of_kill {s : TracerState} (h : Reachable cap (sysEnterMultiplexer b entry) s)
    {i : Nat} (hmem : i ∈ (kills s).map Prod.fst) : i ∈ s.ring.owners :=
  h.mem_owners_of_effect (sysEnterMultiplexer_oneShot b entry)
    (sysEnterMultiplexer_onceSubmitted b entry) hmem

/-! ## Without polls -/

/-- **Kills without polls.**  While nobody polls, the signals sent over the whole
run are no more than the buffer has room for and the consumer has taken out
before.  Once the buffer is full, a call that starts later is neither reported
nor answered. -/
theorem unpolled_kills (b : Build) (entry : ProgramName) (cap : Nat) (s t : TracerState)
    (h : Reachable cap (sysEnterMultiplexer b entry) s)
    (hrun : Unpolled cap (sysEnterMultiplexer b entry) s t) :
    (kills t).length ≤ cap + s.ring.head ∧
    (cap ≤ t.ring.used → ∀ u, Unpolled cap (sysEnterMultiplexer b entry) t u →
      ∀ i, t.calls.length ≤ i → (∀ sig, (i, Effect.sendSignal sig) ∉ u.effects) ∧
        ∀ (k : Nat) (ev : SyscallEvent), u.ring.log[k]? ≠ some (i, .ready ev)) := by
  have ht := hrun.reachable h
  constructor
  · rw [← hrun.head_eq]
    exact ht.length_effects_le (sysEnterMultiplexer_oneShot b entry)
      (sysEnterMultiplexer_onceSubmitted b entry)
  · intro hfull u hlater i hi
    have hnone : i ∉ u.ring.owners := by
      rw [(hlater.owners_eq_of_full hfull).1]
      exact fun hmem => Nat.not_lt.mpr hi ((tracer_invariant ht).owners_lt i hmem)
    constructor
    · intro sig hsig
      refine hnone (mem_owners_of_kill (hlater.reachable ht) ?_)
      have hkill : (i, Effect.sendSignal sig) ∈ kills u := List.mem_filter.mpr ⟨hsig, rfl⟩
      exact List.mem_map_of_mem hkill
    · intro k ev hk
      exact hnone (mem_owners hk)

/-- The traced shell calls `ptrace` before anyone polls. -/
theorem unpolled_ptraceAlone :
    Unpolled syscallRbRecords (sysEnterMultiplexer buildX86 shellName) .init ptraceAlone := by
  refine .head ⟨_, ?_, .enter (shellCall 101 fun _ => 0)⟩ ?_
  · simp
  refine .head ⟨_, ?_, .act (i := 0) rfl (.reserve _) (.reserve blankEvent (by decide))⟩ ?_
  · simp
  refine .head ⟨_, ?_, .act (i := 0) rfl .submit .submit⟩ ?_
  · simp
  refine .head ⟨_, ?_, .act (i := 0) rfl .emit .emit⟩ .refl
  simp

theorem unpolled_kills_alone : (kills ptraceAlone).length ≤ syscallRbRecords + 0 :=
  (unpolled_kills buildX86 shellName syscallRbRecords .init ptraceAlone .refl
    unpolled_ptraceAlone).1

/-! ## Draining the buffer -/

/-- A returned call whose arm reserves a record has submitted it unless the
buffer was full or its string could not be read. -/
theorem submitted_iff {ctx : SysEnter} {nr : SyscallNr} (hsel : Selected entry ctx)
    (hres : Reserves b ctx nr) {l : List (Act SyscallEvent Effect)}
    (he : (sysEnterMultiplexer b entry ctx).Exec l .ret) :
    (∃ k ev, Act.submit k ev ∈ l) ↔ Act.reserve none ∉ l ∧ ¬ CheckedReadFails ctx nr := by
  rw [sysEnterMultiplexer_of_reserves hsel hres] at he
  constructor
  · rintro ⟨k, ev, hsub⟩
    rcases Prog.produce_exec he with ⟨rfl, -⟩ | ⟨rfl, -⟩ | ⟨k', old, hcase⟩
    · simp at hsub
    · simp at hsub
    · rcases hcase with ⟨rfl, -⟩ | ⟨-, rfl, -⟩ | ⟨ev', l', hfill, rfl, he'⟩
      · simp at hsub
      · simp at hsub
      · constructor
        · intro hfull
          rcases List.mem_cons.mp hfull with heq | hfull
          · cases heq
          rcases List.mem_cons.mp hfull with heq | hfull
          · cases heq
          obtain ⟨e, he⟩ := (afterSubmit_quiet nr).exec he' _ hfull
          cases he
        · intro hread
          have hnone : fill (tracedPid entry ctx) ctx nr old = none :=
            (fill_eq_none_iff hres.2.1).mpr hread
          exact Option.some_ne_none ev' (hfill.symm.trans hnone)
  · rintro ⟨hroom, hread⟩
    obtain ⟨k, old, ⟨hfill, -⟩ | ⟨ev, l', -, rfl, -⟩⟩ := Prog.produce_returned he hroom
    · exact absurd ((fill_eq_none_iff hres.2.1).mp hfill) hread
    · exact ⟨k, ev, by simp⟩

/-- **Nothing is lost.**  When all calls have returned, polls empty the buffer.
Then the handler has had, once each, the events of exactly the calls that found
room and could be read. -/
theorem nothing_lost (b : Build) (entry : ProgramName) (cap : Nat) (s : TracerState)
    (h : Reachable cap (sysEnterMultiplexer b entry) s)
    (hret : ∀ i < s.calls.length, s.Returned i) :
    ∃ t, Polled cap (sysEnterMultiplexer b entry) s t ∧ t.ring.used = 0 ∧
      (t.delivered.map Prod.fst).Nodup ∧
      (∀ i ev, (i, ev) ∈ t.delivered → ∃ inv : TracerCall,
        s.calls[i]? = some inv ∧ Submits b entry inv.call ev) ∧
      ∀ (i : Nat) (inv : TracerCall) (nr : SyscallNr), s.calls[i]? = some inv →
        Selected entry inv.call → Reserves b inv.call nr →
        ((∃ ev, (i, ev) ∈ t.delivered) ↔
          Act.reserve none ∉ inv.log ∧ ¬ CheckedReadFails inv.call nr) := by
  have hi := tracer_invariant h
  obtain ⟨t, ht, hcalls, hused, hdelivered⟩ := h.drain (sysEnterMultiplexer_oneShot b entry) hret
  refine ⟨t, ht, hused, (tracer_invariant (ht.reachable h)).delivered_nodup, ?_, ?_⟩
  · intro i ev hmem
    obtain ⟨inv, k, hinv, hsub⟩ := (hdelivered i ev).mp hmem
    exact ⟨inv, hinv, inv.log, inv.prog, k, hi.exec i inv hinv, hsub⟩
  · intro i inv nr hinv hsel hres
    obtain ⟨inv', hinv', hdone⟩ := hret i (List.getElem?_eq_some_iff.mp hinv).1
    rw [hinv] at hinv'
    cases hinv'
    rw [← submitted_iff hsel hres (hi.returned_exec hinv hdone)]
    constructor
    · rintro ⟨ev, hmem⟩
      obtain ⟨inv', k, hinv', hsub⟩ := (hdelivered i ev).mp hmem
      rw [hinv] at hinv'
      cases hinv'
      exact ⟨k, ev, hsub⟩
    · rintro ⟨k, ev, hsub⟩
      exact ⟨ev, (hdelivered i ev).mpr ⟨inv, k, hinv, hsub⟩⟩

theorem nothing_lost_alone :
    ∃ t, Polled syscallRbRecords (sysEnterMultiplexer buildX86 shellName) ptraceAlone t ∧
      t.ring.used = 0 ∧ ∃ ev, (0, ev) ∈ t.delivered := by
  have hret : ∀ i < ptraceAlone.calls.length, ptraceAlone.Returned i := by
    intro i hi
    have hone : ptraceAlone.calls.length = 1 := rfl
    obtain rfl : i = 0 := by omega
    exact ⟨_, rfl, rfl⟩
  obtain ⟨t, ht, hused, -, -, hreported⟩ := nothing_lost buildX86 shellName syscallRbRecords
    ptraceAlone (State.run_reachable _) hret
  refine ⟨t, ht, hused, (hreported 0 _ .nrPtrace rfl (by decide) ?_).mpr ⟨by simp, ?_⟩⟩
  · exact reserves_of_case rfl (by decide) (by decide)
  · rintro ⟨i, hi, -⟩
    cases hi

end EPtracer
