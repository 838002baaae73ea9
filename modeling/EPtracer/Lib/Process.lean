import EPtracer.Lib.Procedure
import EPtracer.Lib.Trace
import Mathlib.Logic.Function.Basic
import Mathlib.Logic.Relation

/-!
# Processes

A process has threads, each of which runs a procedure.  The first one runs from
the start, and the others are started by calls.  Once a signal handler is
installed, a signal can interrupt any thread that has not ended.  The handler runs
in that thread, and it never returns.  The process ends when one of its threads
says so.

The calls of all threads and handlers are in one log, in the order in which they
return.  The log of one thread is the history of its procedure (`own`).  What a
call can return is up to the log so far, so the memory that the threads share is
in the log as well.

Each thread and each handler has a contract (`Procedure.Contract`).  The calls
are all as guaranteed if the answers are as relied on, and for this the
guarantees of the calls before can be used (`Reachable.kept`).
-/

namespace Process

open Procedure Trace

/-- A call in the log of a process. -/
structure Entry (I : Interface) (T : Type) where
  thread : T
  /-- The handler makes the call. -/
  handling : Bool
  event : Event I

/-- What a process runs. -/
structure Program (I : Interface) (T : Type) where
  /-- The thread the process starts with. -/
  first : T
  /-- What that thread runs. -/
  body : Proc I Unit
  /-- What a signal runs. -/
  handler : Proc I Unit
  /-- The thread that starts with a call, and what it runs. -/
  starts : Event I → Option (T × Proc I Unit)
  /-- The thread whose end a call awaits. -/
  awaits : I.Call → Option T
  /-- The call installs the handler. -/
  installs : I.Call → Bool
  /-- A call can return this, after what is in the log. -/
  can : List (Entry I T) → Event I → Prop

/-- How a process has ended. -/
inductive Outcome where
  | exited (status : Int32)
  | killed

/-- A process: what its threads have left to do, and what they have done. -/
structure State (I : Interface) (T : Type) where
  /-- What is left of the procedure of each thread that has been started. -/
  threads : T → Option (Proc I Unit)
  /-- What is left of the handler, in the threads that are interrupted. -/
  handlers : T → Option (Proc I Unit)
  /-- The calls of all threads, oldest first. -/
  log : List (Entry I T)
  /-- How the process has ended, if it has. -/
  outcome : Option Outcome

variable {I : Interface} {T : Type} [DecidableEq T]

/-- The calls of a thread, or of its handler. -/
def own (log : List (Entry I T)) (t : T) (handling : Bool) : History I :=
  (log.filter fun x => x.thread = t ∧ x.handling = handling).map Entry.event

namespace State

/-- The process at its start.  Only the first thread is there. -/
def init (P : Program I T) : State I T :=
  ⟨fun t => if t = P.first then some P.body else none, fun _ => none, [], none⟩

/-- What a thread runs, and whether it is the handler. -/
def current (s : State I T) (t : T) : Option (Bool × Proc I Unit) :=
  match s.handlers t with
  | some p => some (true, p)
  | none => (s.threads t).map fun p => (false, p)

/-- A thread that is started twice is left as it is. -/
def startThread (threads : T → Option (Proc I Unit)) :
    Option (T × Proc I Unit) → T → Option (Proc I Unit)
  | none => threads
  | some (u, body) => if threads u = none then Function.update threads u (some body) else threads

/-- The state after a call of thread `t`, which is left with `q`. -/
def after (P : Program I T) (s : State I T) (t : T) (b : Bool) (e : Event I)
    (q : Proc I Unit) : State I T where
  threads := startThread (if b then s.threads else Function.update s.threads t (some q))
    (P.starts e)
  handlers := if b then Function.update s.handlers t (some q) else s.handlers
  log := s.log ++ [⟨t, b, e⟩]
  outcome := s.outcome

end State

/-- A step of a process. -/
inductive Step (P : Program I T) : State I T → State I T → Prop where
  | call {s : State I T} {t : T} {b : Bool} {p q : Proc I Unit} {e : Event I} :
      s.outcome = none → s.current t = some (b, p) → p.Step e q → P.can s.log e →
      (∀ u, P.awaits e.call = some u → s.threads u = some (.ret ())) →
      Step P s (s.after P t b e q)
  | exit {s : State I T} {t : T} {b : Bool} {status : Int32} :
      s.outcome = none → s.current t = some (b, .exit status) →
      Step P s { s with outcome := some (.exited status) }
  | signal {s : State I T} {t : T} {p : Proc I Unit} :
      s.outcome = none → s.threads t = some p → p ≠ .ret () → s.handlers t = none →
      (∃ x ∈ s.log, P.installs x.event.call) →
      Step P s { s with handlers := Function.update s.handlers t (some P.handler) }
  | kill {s : State I T} :
      s.outcome = none → (∀ x ∈ s.log, ¬ P.installs x.event.call) →
      Step P s { s with outcome := some .killed }

/-- The states of all interleavings of the threads and the signals. -/
def Reachable (P : Program I T) : State I T → Prop :=
  Relation.ReflTransGen (Step P) (.init P)

/-! ## The log of one thread -/

theorem own_append (log log' : List (Entry I T)) (t : T) (b : Bool) :
    own (log ++ log') t b = own log t b ++ own log' t b := by
  rw [own, List.filter_append, List.map_append]
  rfl

@[simp] theorem own_snoc_self (log : List (Entry I T)) (t : T) (b : Bool) (e : Event I) :
    own (log ++ [⟨t, b, e⟩]) t b = own log t b ++ [e] := by
  rw [own_append]
  simp [own]

theorem own_snoc_of_ne {log : List (Entry I T)} {x : Entry I T} {t : T} {b : Bool}
    (h : ¬ (x.thread = t ∧ x.handling = b)) : own (log ++ [x]) t b = own log t b := by
  rw [own_append]
  simp [own, h]

theorem mem_own {log : List (Entry I T)} {t : T} {b : Bool} {e : Event I} :
    e ∈ own log t b ↔ ⟨t, b, e⟩ ∈ log := by
  simp only [own, List.mem_map, List.mem_filter, decide_eq_true_eq]
  constructor
  · rintro ⟨x, ⟨hmem, rfl, rfl⟩, rfl⟩
    exact hmem
  · exact fun h => ⟨_, ⟨h, rfl, rfl⟩, rfl⟩

/-- A call in the log of a thread is in the log, with the calls around it. -/
theorem own_eq_append_cons {log : List (Entry I T)} {t : T} {b : Bool} {pre mid : History I}
    {e : Event I} (h : own log t b = pre ++ e :: mid) :
    ∃ before after, log = before ++ ⟨t, b, e⟩ :: after ∧ own before t b = pre ∧
      own after t b = mid := by
  induction log generalizing pre with
  | nil => simp [own] at h
  | cons x log ih =>
      by_cases hx : x.thread = t ∧ x.handling = b
      · obtain ⟨rfl, rfl⟩ := hx
        have hcons : own (x :: log) x.thread x.handling =
            x.event :: own log x.thread x.handling := by simp [own]
        rw [hcons] at h
        cases pre with
        | nil =>
            obtain ⟨rfl, rfl⟩ := List.cons.inj h
            exact ⟨[], log, rfl, rfl, rfl⟩
        | cons e' pre =>
            obtain ⟨rfl, hrest⟩ := List.cons.inj h
            obtain ⟨before, after, rfl, rfl, rfl⟩ := ih hrest
            exact ⟨x :: before, after, rfl, by simp [own], rfl⟩
      · have hcons : own (x :: log) t b = own log t b := by simp [own, hx]
        rw [hcons] at h
        obtain ⟨before, after, rfl, rfl, rfl⟩ := ih h
        exact ⟨x :: before, after, rfl, by simp [own, hx], rfl⟩

/-- The only thread has all of the log. -/
theorem own_eq_map {log : List (Entry I T)} {t : T} {b : Bool}
    (h : ∀ x ∈ log, x.thread = t ∧ x.handling = b) : own log t b = log.map Entry.event := by
  rw [own, List.filter_eq_self.mpr fun x hx => decide_eq_true (h x hx)]

/-! ## Threads and handlers -/

omit [DecidableEq T] in
theorem State.current_eq_true {s : State I T} {t : T} {p : Proc I Unit} :
    s.current t = some (true, p) ↔ s.handlers t = some p := by
  unfold State.current
  cases s.handlers t with
  | none => simp
  | some q => simp

omit [DecidableEq T] in
theorem State.current_eq_false {s : State I T} {t : T} {p : Proc I Unit} :
    s.current t = some (false, p) ↔ s.handlers t = none ∧ s.threads t = some p := by
  unfold State.current
  cases s.handlers t with
  | none => simp
  | some q => simp

variable {P : Program I T}

theorem State.startThread_cases {threads : T → Option (Proc I Unit)}
    {start : Option (T × Proc I Unit)} {u : T} {p : Proc I Unit}
    (h : startThread threads start u = some p) :
    threads u = some p ∨ (threads u = none ∧ start = some (u, p)) := by
  cases start with
  | none => exact .inl h
  | some start =>
      simp only [startThread] at h
      split at h
      next hnone =>
        by_cases hu : u = start.1
        · subst hu
          rw [Function.update_self] at h
          obtain rfl : start.2 = p := Option.some.inj h
          exact .inr ⟨hnone, rfl⟩
        · rw [Function.update_of_ne hu] at h
          exact .inl h
      next => exact .inl h

theorem State.startThread_of_some {threads : T → Option (Proc I Unit)}
    {start : Option (T × Proc I Unit)} {u : T} {p : Proc I Unit} (h : threads u = some p) :
    startThread threads start u = some p := by
  cases start with
  | none => exact h
  | some start =>
      simp only [startThread]
      split
      next hnone =>
        have hu : u ≠ start.1 := by
          rintro rfl
          rw [hnone] at h
          cases h
        rw [Function.update_of_ne hu]
        exact h
      next => exact h

theorem State.after_threads_self {s : State I T} {t : T} {e : Event I} {q : Proc I Unit} :
    (s.after P t false e q).threads t = some q :=
  startThread_of_some (by simp)

theorem State.after_threads_of_some {s : State I T} {t u : T} {b : Bool} {e : Event I}
    {p q : Proc I Unit} (h : s.threads u = some p) (hne : u = t → b = true) :
    (s.after P t b e q).threads u = some p := by
  refine startThread_of_some ?_
  cases b with
  | true => exact h
  | false =>
      have hut : u ≠ t := fun hut => Bool.noConfusion (hne hut)
      simpa [Function.update_of_ne hut] using h

/-- A thread after a call of thread `t`: it is the one that has made the call, or
it is as before, or the call has started it. -/
theorem State.after_threads {s : State I T} {t u : T} {b : Bool} {e : Event I}
    {p q : Proc I Unit} (h : (s.after P t b e q).threads u = some p) :
    (u = t ∧ b = false ∧ p = q) ∨ (s.threads u = some p ∧ (u = t → b = true)) ∨
      (s.threads u = none ∧ P.starts e = some (u, p)) := by
  cases b with
  | true =>
      rcases startThread_cases h with h | ⟨hnone, hstarts⟩
      · exact .inr (.inl ⟨h, fun _ => rfl⟩)
      · exact .inr (.inr ⟨hnone, hstarts⟩)
  | false =>
      rcases startThread_cases h with h | ⟨hnone, hstarts⟩
      · by_cases hut : u = t
        · subst hut
          exact .inl ⟨rfl, rfl, by simpa using h.symm⟩
        · exact .inr (.inl ⟨by simpa [Function.update_of_ne hut] using h, fun h => absurd h hut⟩)
      · by_cases hut : u = t
        · subst hut
          simp at hnone
        · exact .inr (.inr ⟨by simpa [Function.update_of_ne hut] using hnone, hstarts⟩)

theorem State.after_handlers {s : State I T} {t u : T} {b : Bool} {e : Event I}
    {p q : Proc I Unit} (h : (s.after P t b e q).handlers u = some p) :
    (u = t ∧ b = true ∧ p = q) ∨ (s.handlers u = some p ∧ (u = t → b = false)) := by
  cases b with
  | false => exact .inr ⟨h, fun _ => rfl⟩
  | true =>
      have h : Function.update s.handlers t (some q) u = some p := h
      by_cases hut : u = t
      · subst hut
        exact .inl ⟨rfl, rfl, by simpa using h.symm⟩
      · rw [Function.update_of_ne hut] at h
        exact .inr ⟨h, fun h => absurd h hut⟩

theorem State.after_threads_ne_none {s : State I T} {t u : T} {b : Bool} {e : Event I}
    {q : Proc I Unit} (h : s.threads u ≠ none) : (s.after P t b e q).threads u ≠ none := by
  obtain ⟨p, hp⟩ := Option.ne_none_iff_exists'.mp h
  by_cases hut : u = t → b = true
  · simp [after_threads_of_some hp hut]
  · obtain ⟨rfl, hb⟩ := Classical.not_imp.mp hut
    obtain rfl : b = false := by simpa using hb
    simp [after_threads_self]

theorem State.after_handlers_ne_none {s : State I T} {t u : T} {b : Bool} {e : Event I}
    {q : Proc I Unit} (h : s.handlers u ≠ none) : (s.after P t b e q).handlers u ≠ none := by
  cases b with
  | false => exact h
  | true =>
      by_cases hut : u = t
      · subst hut
        simp [after]
      · simpa [after, Function.update_of_ne hut] using h

/-- A thread that has returned makes no call. -/
theorem State.after_threads_of_returned {s : State I T} {t u : T} {b : Bool} {e : Event I}
    {p q : Proc I Unit} (hcur : s.current t = some (b, p)) (hstep : p.Step e q)
    (h : s.threads u = some (.ret ())) :
    (s.after P t b e q).threads u = some (.ret ()) := by
  refine after_threads_of_some h fun hut => ?_
  subst hut
  cases b with
  | true => rfl
  | false =>
      obtain ⟨-, hp⟩ := current_eq_false.mp hcur
      rw [h] at hp
      cases hp
      cases hstep

/-! ## What holds of every process -/

/-- What the log and the threads have in common in every state. -/
structure WellFormed (P : Program I T) (s : State I T) : Prop where
  /-- Nothing is in the log of a thread or a handler that has not begun. -/
  begun : ∀ x ∈ s.log, s.threads x.thread ≠ none ∧
    (x.handling = true → s.handlers x.thread ≠ none)
  /-- A handler runs in a thread that was started, and has been installed. -/
  interrupted : ∀ t, s.handlers t ≠ none → s.threads t ≠ none ∧
    ∃ x ∈ s.log, P.installs x.event.call
  /-- A thread was started by a call. -/
  started : ∀ t, s.threads t ≠ none → t = P.first ∨
    ∃ x ∈ s.log, ∃ body, P.starts x.event = some (t, body)
  /-- A thread makes no call after its handler has made one. -/
  suspended : s.log.Pairwise fun x y =>
    x.thread = y.thread → x.handling = true → y.handling = true
  /-- A call is made after its thread was started and its handler installed. -/
  calls : Each (fun before x => P.can before x.event ∧
    (x.thread = P.first ∨ ∃ y ∈ before, ∃ body, P.starts y.event = some (x.thread, body)) ∧
    (x.handling = true → ∃ y ∈ before, P.installs y.event.call)) s.log
  /-- A thread that was awaited has returned. -/
  awaited : ∀ x ∈ s.log, ∀ u, P.awaits x.event.call = some u → s.threads u = some (.ret ())
  exited : ∀ status, s.outcome = some (.exited status) →
    ∃ t b, s.current t = some (b, .exit status)

theorem WellFormed.init : WellFormed P (.init P) where
  begun := fun x hx => absurd hx List.not_mem_nil
  interrupted := fun t ht => absurd rfl ht
  started := fun t ht => by
    refine .inl (Decidable.byContradiction fun hne => ht ?_)
    simp [State.init, hne]
  suspended := .nil
  calls := .nil _
  awaited := fun x hx => absurd hx List.not_mem_nil
  exited := fun status h => by cases h

omit [DecidableEq T] in
theorem State.threads_of_current {s : State I T} {t : T} {b : Bool} {p : Proc I Unit}
    (hw : WellFormed P s) (h : s.current t = some (b, p)) : s.threads t ≠ none := by
  cases b with
  | true =>
      have hh := State.current_eq_true.mp h
      exact (hw.interrupted t (by simp [hh])).1
  | false =>
      have hh := State.current_eq_false.mp h
      simp [hh.2]

theorem WellFormed.call {s : State I T} {t : T} {b : Bool} {p q : Proc I Unit} {e : Event I}
    (hw : WellFormed P s) (hout : s.outcome = none) (hcur : s.current t = some (b, p))
    (hstep : p.Step e q) (hcan : P.can s.log e)
    (hawaits : ∀ u, P.awaits e.call = some u → s.threads u = some (.ret ())) :
    WellFormed P (s.after P t b e q) := by
  have hthread := State.threads_of_current hw hcur
  have hkeep {u : T} (hu : s.threads u ≠ none) : (s.after P t b e q).threads u ≠ none :=
    State.after_threads_ne_none hu
  have hret {u : T} (hu : s.threads u = some (.ret ())) :
      (s.after P t b e q).threads u = some (.ret ()) :=
    State.after_threads_of_returned hcur hstep hu
  have hinstalled : b = true → ∃ x ∈ s.log, P.installs x.event.call := by
    rintro rfl
    have hh := State.current_eq_true.mp hcur
    exact (hw.interrupted t (by simp [hh])).2
  refine ⟨?_, ?_, ?_, ?_, ?_, ?_, ?_⟩
  · intro x hx
    rcases List.mem_append.mp hx with hx | hx
    · obtain ⟨hthreads, hhandlers⟩ := hw.begun x hx
      exact ⟨hkeep hthreads, fun hb => State.after_handlers_ne_none (hhandlers hb)⟩
    · obtain rfl := List.mem_singleton.mp hx
      refine ⟨hkeep hthread, fun hb => State.after_handlers_ne_none ?_⟩
      obtain rfl : b = true := hb
      simp [State.current_eq_true.mp hcur]
  · intro u hu
    have hold : s.handlers u ≠ none := by
      obtain ⟨r, hr⟩ := Option.ne_none_iff_exists'.mp hu
      rcases State.after_handlers hr with ⟨rfl, rfl, -⟩ | ⟨hr, -⟩
      · simp [State.current_eq_true.mp hcur]
      · simp [hr]
    obtain ⟨hthreads, x, hx, hinstalls⟩ := hw.interrupted u hold
    exact ⟨hkeep hthreads, x, List.mem_append_left _ hx, hinstalls⟩
  · intro u hu
    obtain ⟨r, hr⟩ := Option.ne_none_iff_exists'.mp hu
    have hold : s.threads u ≠ none → u = P.first ∨
        ∃ x ∈ s.log ++ [⟨t, b, e⟩], ∃ body, P.starts x.event = some (u, body) := by
      intro hu
      refine (hw.started u hu).imp_right ?_
      rintro ⟨x, hx, hstarts⟩
      exact ⟨x, List.mem_append_left _ hx, hstarts⟩
    rcases State.after_threads hr with ⟨rfl, -, -⟩ | ⟨hr, -⟩ | ⟨-, hstarts⟩
    · exact hold hthread
    · exact hold (by simp [hr])
    · exact .inr ⟨⟨t, b, e⟩, List.mem_append_right _ List.mem_cons_self, r, hstarts⟩
  · refine List.pairwise_append.mpr ⟨hw.suspended, List.pairwise_singleton _ _, ?_⟩
    intro x hx y hy hthread hb
    obtain rfl := List.mem_singleton.mp hy
    cases b with
    | true => rfl
    | false =>
        have hnone := (State.current_eq_false.mp hcur).1
        obtain rfl : x.thread = t := hthread
        exact absurd hnone ((hw.begun x hx).2 hb)
  · exact hw.calls.snoc ⟨hcan, hw.started t hthread, hinstalled⟩
  · intro x hx u hu
    rcases List.mem_append.mp hx with hx | hx
    · exact hret (hw.awaited x hx u hu)
    · obtain rfl := List.mem_singleton.mp hx
      exact hret (hawaits u hu)
  · intro status h
    have h : s.outcome = some (.exited status) := h
    rw [hout] at h
    cases h

theorem WellFormed.step {s s' : State I T} (hw : WellFormed P s) (hs : Step P s s') :
    WellFormed P s' := by
  cases hs with
  | call hout hcur hstep hcan hawaits => exact hw.call hout hcur hstep hcan hawaits
  | exit hout hcur => exact { hw with exited := fun status h => by cases h; exact ⟨_, _, hcur⟩ }
  | @signal t p hout hthread _ _ hinstalled =>
      refine { hw with begun := ?_, interrupted := ?_, exited := ?_ }
      · intro x hx
        refine ⟨(hw.begun x hx).1, fun hb => ?_⟩
        by_cases hxt : x.thread = t
        · simp [hxt]
        · simpa [Function.update_of_ne hxt] using (hw.begun x hx).2 hb
      · intro u hu
        by_cases hut : u = t
        · subst hut
          exact ⟨by simp [hthread], hinstalled⟩
        · exact hw.interrupted u (by simpa [Function.update_of_ne hut] using hu)
      · intro status h
        have h : s.outcome = some (.exited status) := h
        rw [hout] at h
        cases h
  | kill hout => exact { hw with exited := fun status h => by cases h }

theorem Reachable.wellFormed {s : State I T} (h : Reachable P s) : WellFormed P s := by
  induction h with
  | refl => exact .init
  | tail _ hs ih => exact ih.step hs

/-! ## Contracts -/

/-- The threads and the handlers keep their contracts, from the calls they have
made on. -/
structure Kept (C : T → Bool → Contract I) (s : State I T) : Prop where
  /-- What is left of a thread keeps its contract. -/
  threads : ∀ t p, s.threads t = some p →
    p.wp (C t false) (fun _ _ => True) (own s.log t false)
  /-- What is left of a handler does. -/
  handlers : ∀ t p, s.handlers t = some p →
    p.wp (C t true) (fun _ _ => True) (own s.log t true)
  /-- The calls in the log were guaranteed. -/
  calls : Each (fun before x =>
    (C x.thread x.handling).guar (own before x.thread x.handling) x.event) s.log

/-- What has to be shown of the contracts.  What is relied on is shown of the
state in which the call returns. -/
structure Lawful (P : Program I T) (C : T → Bool → Contract I) : Prop where
  /-- The first thread keeps its contract. -/
  body : P.body.wp (C P.first false) (fun _ _ => True) []
  /-- The handler keeps its contract in each thread. -/
  handler : ∀ t, P.handler.wp (C t true) (fun _ _ => True) []
  /-- A thread keeps its contract if it was started as guaranteed. -/
  starts : ∀ {t b h e u body}, (C t b).guar h e → P.starts e = some (u, body) →
    body.wp (C u false) (fun _ _ => True) []
  /-- The answers are as the contracts rely on. -/
  rely : ∀ {s t b p q e}, WellFormed P s → Kept C s → s.current t = some (b, p) →
    p.Step e q → P.can s.log e → (C t b).rely (own s.log t b) e

variable {C : T → Bool → Contract I}

theorem own_of_not_begun {s : State I T} (hw : WellFormed P s) {t : T} {b : Bool}
    (h : s.threads t = none ∨ (b = true ∧ s.handlers t = none)) : own s.log t b = [] := by
  refine List.eq_nil_iff_forall_not_mem.mpr fun e he => ?_
  obtain ⟨hthreads, hhandlers⟩ := hw.begun _ (mem_own.mp he)
  rcases h with h | ⟨rfl, h⟩
  · exact hthreads h
  · exact hhandlers rfl h

theorem Kept.init (hC : Lawful P C) : Kept C (.init P) where
  threads := fun t p h => by
    simp only [State.init] at h
    split at h
    next ht =>
      cases h
      rw [ht]
      exact hC.body
    next => cases h
  handlers := fun t p h => by cases h
  calls := .nil _

theorem Kept.call (hC : Lawful P C) {s : State I T} {t : T} {b : Bool} {p q : Proc I Unit}
    {e : Event I} (hw : WellFormed P s) (hk : Kept C s) (hcur : s.current t = some (b, p))
    (hstep : p.Step e q) (hcan : P.can s.log e) : Kept C (s.after P t b e q) := by
  have hwp : p.wp (C t b) (fun _ _ => True) (own s.log t b) := by
    cases b with
    | true => exact hk.handlers t p (State.current_eq_true.mp hcur)
    | false => exact hk.threads t p (State.current_eq_false.mp hcur).2
  obtain ⟨hguar, hnext⟩ := Proc.wp_step hwp hstep (hC.rely hw hk hcur hstep hcan)
  refine ⟨fun u r hr => ?_, fun u r hr => ?_, hk.calls.snoc hguar⟩
  · rcases State.after_threads hr with ⟨rfl, rfl, rfl⟩ | ⟨hr, hne⟩ | ⟨hnone, hstarts⟩
    · rw [State.after, own_snoc_self]
      exact hnext
    · rw [State.after, own_snoc_of_ne]
      · exact hk.threads u r hr
      · rintro ⟨rfl, rfl⟩
        cases hne rfl
    · rw [State.after, own_snoc_of_ne, own_of_not_begun hw (.inl hnone)]
      · exact hC.starts hguar hstarts
      · rintro ⟨rfl, -⟩
        exact State.threads_of_current hw hcur hnone
  · rcases State.after_handlers hr with ⟨rfl, rfl, rfl⟩ | ⟨hr, hne⟩
    · rw [State.after, own_snoc_self]
      exact hnext
    · rw [State.after, own_snoc_of_ne]
      · exact hk.handlers u r hr
      · rintro ⟨rfl, rfl⟩
        cases hne rfl

theorem Kept.step (hC : Lawful P C) {s s' : State I T} (hw : WellFormed P s) (hk : Kept C s)
    (hs : Step P s s') : Kept C s' := by
  cases hs with
  | call _ hcur hstep hcan => exact hk.call hC hw hcur hstep hcan
  | exit => exact ⟨hk.threads, hk.handlers, hk.calls⟩
  | @signal t p _ _ _ hnone =>
      refine ⟨hk.threads, fun u r hr => ?_, hk.calls⟩
      by_cases hut : u = t
      · subst hut
        obtain rfl : P.handler = r := by simpa using hr
        rw [own_of_not_begun hw (.inr ⟨rfl, hnone⟩)]
        exact hC.handler u
      · exact hk.handlers u r (by simpa [Function.update_of_ne hut] using hr)
  | kill => exact ⟨hk.threads, hk.handlers, hk.calls⟩

theorem Reachable.kept (hC : Lawful P C) {s : State I T} (h : Reachable P s) : Kept C s := by
  induction h with
  | refl => exact .init hC
  | tail hr hs ih => exact ih.step hC (Reachable.wellFormed hr) hs

/-- A process ends as the contract of one of its threads or handlers says. -/
theorem Kept.exits {s : State I T} (hw : WellFormed P s) (hk : Kept C s) {status : Int32}
    (h : s.outcome = some (.exited status)) :
    ∃ t b, s.current t = some (b, .exit status) ∧ (C t b).exits (own s.log t b) status := by
  obtain ⟨t, b, hcur⟩ := hw.exited status h
  refine ⟨t, b, hcur, ?_⟩
  cases b with
  | true => exact hk.handlers t _ (State.current_eq_true.mp hcur)
  | false => exact hk.threads t _ (State.current_eq_false.mp hcur).2

/-! ## Running a process -/

/-- A thread has returned. -/
def State.finished (s : State I T) (t : T) : Bool :=
  match s.threads t with
  | some (.ret _) => true
  | _ => false

/-- The next call or exit of a thread, if it can do one.  `answer` is what calls
return. -/
def State.turn (P : Program I T) (answer : List (Entry I T) → (c : I.Call) → I.Answer c)
    (s : State I T) (t : T) : State I T :=
  match s.outcome, s.current t with
  | none, some (b, p) =>
      match p.head with
      | .ret _ => s
      | .exit status => { s with outcome := some (.exited status) }
      | .call c next =>
          if (P.awaits c).all s.finished then
            s.after P t b ⟨c, answer s.log c⟩ (next (answer s.log c))
          else s
  | _, _ => s

/-- A signal that comes to a thread. -/
def State.interrupt (P : Program I T) (s : State I T) (t : T) : State I T :=
  match s.outcome, s.threads t, s.handlers t with
  | none, some _, none =>
      if !s.finished t && s.log.any (fun x => P.installs x.event.call) then
        { s with handlers := Function.update s.handlers t (some P.handler) }
      else s
  | _, _, _ => s

/-- A choice of the scheduler. -/
inductive Move (T : Type) where
  | turn (t : T)
  | interrupt (t : T)

/-- The state after the moves, when calls get these answers. -/
def State.run (P : Program I T) (answer : List (Entry I T) → (c : I.Call) → I.Answer c)
    (moves : List (Move T)) : State I T :=
  moves.foldl (fun s move => match move with
    | .turn t => s.turn P answer t
    | .interrupt t => s.interrupt P t) (.init P)

omit [DecidableEq T] in
theorem State.finished_iff {s : State I T} {t : T} :
    s.finished t = true ↔ s.threads t = some (.ret ()) := by
  unfold finished
  split
  next h => simp [h]
  next h => simpa using fun hret => h () hret

theorem Reachable.turn {answer : List (Entry I T) → (c : I.Call) → I.Answer c}
    (hanswer : ∀ log c, P.can log ⟨c, answer log c⟩) {s : State I T} (h : Reachable P s) (t : T) :
    Reachable P (s.turn P answer t) := by
  unfold State.turn
  split
  next b p hout hcur =>
    cases hhead : p.head with
    | ret r => exact h
    | exit status =>
        refine h.tail (.exit hout (t := t) (b := b) ?_)
        cases p with
        | exit status' =>
            cases hhead
            exact hcur
        | _ => cases hhead
    | call c next =>
        simp only
        split
        next hawaits =>
          refine h.tail (.call hout hcur (Proc.step_of_head hhead _) (hanswer _ _) fun u hu => ?_)
          rw [hu] at hawaits
          exact State.finished_iff.mp (by simpa using hawaits)
        next => exact h
  next => exact h

theorem Reachable.interrupt {s : State I T} (h : Reachable P s) (t : T) :
    Reachable P (s.interrupt P t) := by
  unfold State.interrupt
  split
  next p hout hthread hhandler =>
    split
    next hlive =>
      obtain ⟨hfinished, hinstalled⟩ := Bool.and_eq_true_iff.mp hlive
      refine h.tail (.signal hout hthread ?_ hhandler ?_)
      · rintro rfl
        simp [State.finished_iff.mpr hthread] at hfinished
      · simpa using hinstalled
    next => exact h
  next => exact h

theorem State.run_reachable {answer : List (Entry I T) → (c : I.Call) → I.Answer c}
    (hanswer : ∀ log c, P.can log ⟨c, answer log c⟩) (moves : List (Move T)) :
    Reachable P (run P answer moves) := by
  suffices h : ∀ s, Reachable P s → Reachable P (moves.foldl (fun s move => match move with
      | .turn t => s.turn P answer t
      | .interrupt t => s.interrupt P t) s) from h _ .refl
  induction moves with
  | nil => exact fun s h => h
  | cons move moves ih =>
      intro s h
      cases move with
      | turn t => exact ih _ (h.turn hanswer t)
      | interrupt t => exact ih _ (h.interrupt t)

end Process
