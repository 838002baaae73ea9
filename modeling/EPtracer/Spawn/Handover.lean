import EPtracer.Lib.Printf
import EPtracer.Lib.Trace
import EPtracer.Target.Selection
import Mathlib.Logic.Relation

/-!
# Spawning a target

With a program to spawn, `main` loads the BPF programs and forks.  The child
writes its PID to a pipe and executes the program.  The tracer reads the PID,
stores it in `program_map` and attaches the programs.

The pipe goes one way.  It makes the tracer wait for the child's `write`, and
nothing makes the child wait for the tracer.  So the order of what each process
does is fixed, the read comes after the write, and the store and the attach can
come anywhere in the life of the child (`handover_order`).
-/

namespace EPtracer

open CText Trace

/-- `MAX_PID_LEN`. -/
def maxPidLen : Nat := 10

/-- The string `get_PID_to_trace` makes of a PID: what fits `MAX_PID_LEN` bytes. -/
def pidToTraceStr (pid : Int32) : CStr :=
  ⟨(signed pid.toInt).take (maxPidLen - 1), fun h =>
    (plain_signed _ 0 (List.mem_of_mem_take h)).2.2 rfl⟩

theorem snprintf_pidToTraceStr (pid : Int32) :
    snprintf maxPidLen "%d" [.int pid] = some ((pidToTraceStr pid).bytes ++ [0]) := by
  have hformat : format "%d" [.int pid] = some (signed pid.toInt ++ []) := by
    rw [format_ofList]
    rfl
  rw [snprintf, hformat, List.append_nil]
  rfl

theorem initializeArray_pidToTraceStr (pid : Int32) (map : ProgramName) :
    initializeArray 0 (pidToTraceStr pid) map =
      (0, strncpy maxProgramStringLen (pidToTraceStr pid)) := by
  have hlen : (pidToTraceStr pid).bytes.length ≤ maxPidLen - 1 := List.length_take_le ..
  have hfits : ¬ maxProgramStringLen < (pidToTraceStr pid).bytes.length := by
    simp only [maxPidLen, maxProgramStringLen] at *
    omega
  simp [initializeArray, hfits]

/-! ## The two processes -/

/-- How far the tracer is.  It fails where a call does, and exits. -/
inductive Tracer where
  | started | loaded | forked | gotPid (pid : Int32) | stored | attached | failed

/-- How far the child is. -/
inductive Child where
  | none | spawned | wrote | running | exited

/-- What happens, as far as the order matters: the tracer loads the programs,
forks, reads a PID, stores it and attaches the programs.  The child writes its
PID, executes the program and makes its calls. -/
inductive HandoverEvent where
  | load | fork | write | read (pid : Int32) | store | attach | execvp | syscall (id : Int64)
deriving DecidableEq

/-- A call the child makes from `execvp` on. -/
def HandoverEvent.fromExec : HandoverEvent → Bool
  | .execvp | .syscall _ => true
  | _ => false

/-- The two processes and what they share. -/
structure Handover where
  tracer : Tracer
  child : Child
  pipe : Option Int32
  programMap : ProgramName
  /-- What has happened, oldest first. -/
  log : List HandoverEvent

/-- The tracer has been started, and there is no child. -/
def Handover.init : Handover := ⟨.started, .none, none, Buf.zero _, []⟩

/-- A step of either process, where `pid` is the PID of the child. -/
inductive Handover.Step (pid : Int32) : Handover → Handover → Prop where
  | load {s : Handover} : s.tracer = .started →
      Step pid s { s with tracer := .loaded, log := s.log ++ [.load] }
  | fork {s : Handover} : s.tracer = .loaded →
      Step pid s { s with tracer := .forked, child := .spawned, log := s.log ++ [.fork] }
  | read {s : Handover} {v : Int32} : s.tracer = .forked → s.pipe = some v →
      Step pid s { s with tracer := .gotPid v, pipe := none, log := s.log ++ [.read v] }
  /-- The child exited without a `write`.  The `read` returns 0, and the variable
  keeps what it held. -/
  | readEof {s : Handover} (v : Int32) : s.tracer = .forked → s.pipe = none →
      s.child = .exited →
      Step pid s { s with tracer := .gotPid v, log := s.log ++ [.read v] }
  | store {s : Handover} {v : Int32} : s.tracer = .gotPid v →
      Step pid s { s with
        tracer := .stored
        programMap := (initializeArray 0 (pidToTraceStr v) s.programMap).2
        log := s.log ++ [.store] }
  | attach {s : Handover} : s.tracer = .stored →
      Step pid s { s with tracer := .attached, log := s.log ++ [.attach] }
  | fail {s : Handover} : s.tracer ≠ .attached → Step pid s { s with tracer := .failed }
  | write {s : Handover} : s.child = .spawned →
      Step pid s { s with child := .wrote, pipe := some pid, log := s.log ++ [.write] }
  | execvp {s : Handover} : s.child = .wrote →
      Step pid s { s with child := .running, log := s.log ++ [.execvp] }
  | syscall {s : Handover} (id : Int64) : s.child = .running →
      Step pid s { s with log := s.log ++ [.syscall id] }
  | exit {s : Handover} : s.child ≠ .none → Step pid s { s with child := .exited }

/-- The states of all interleavings. -/
def Handover.Reachable (pid : Int32) : Handover → Prop :=
  Relation.ReflTransGen (Handover.Step pid) .init

/-- No call from `execvp` on comes before the identifier is stored and the
programs are attached. -/
def Handover.NoEarlyCall (s : Handover) : Prop :=
  ∀ before e after, s.log = before ++ e :: after → e.fromExec = true →
    .store ∈ before ∧ .attach ∈ before

/-! ## What the order is -/

/-- `program_map` identifies the child by the PID it has sent. -/
def Handover.Identified (pid : Int32) (s : Handover) : Prop :=
  s.programMap = strncpy maxProgramStringLen (pidToTraceStr pid)

/-- The child is gone and has not sent its PID. -/
def Handover.Silent (s : Handover) : Prop :=
  s.child = .exited ∧ .write ∉ s.log

/-- What the state of each process says about what has happened. -/
structure Handover.Known (pid : Int32) (s : Handover) : Prop where
  /-- Before the fork there is no child. -/
  unforked : s.tracer = .started ∨ s.tracer = .loaded → s.child = .none ∧ .write ∉ s.log
  /-- Only the child's PID is in the pipe. -/
  pipe : ∀ v, s.pipe = some v → v = pid
  /-- What is sent stays in the pipe until it is read. -/
  unread : s.tracer = .forked → .write ∈ s.log → s.pipe = some pid
  /-- The PID the tracer has is the child's, if the child has sent one. -/
  gotPid : ∀ v, s.tracer = .gotPid v → .read v ∈ s.log ∧ (v = pid ∨ s.Silent)
  /-- A tracer that has stored the PID has stored it. -/
  stored : s.tracer = .stored → .store ∈ s.log
  /-- What is stored identifies the child, if the child has sent its PID. -/
  identified : .store ∈ s.log → s.Identified pid ∨ s.Silent
  /-- The child has sent its PID before it executes. -/
  wrote : s.child = .wrote ∨ s.child = .running → .write ∈ s.log

/-- The order of what has happened. -/
structure Ordered (log : List HandoverEvent) : Prop where
  /-- The PID is sent before the program runs. -/
  write_execvp : Precedes (· = .write) (fun e => e.fromExec = true) log
  /-- It is read before it is stored. -/
  read_store : Precedes (fun e => ∃ v, e = .read v) (· = .store) log
  /-- It is stored before the programs are attached. -/
  store_attach : Precedes (· = .store) (· = .attach) log

theorem Ordered.snoc {log : List HandoverEvent} (h : Ordered log) {e : HandoverEvent}
    (hexec : e.fromExec = true → .write ∈ log) (hstore : e = .store → ∃ v, .read v ∈ log)
    (hattach : e = .attach → .store ∈ log) : Ordered (log ++ [e]) where
  write_execvp := h.write_execvp.snoc fun he => ⟨_, hexec he, rfl⟩
  read_store := h.read_store.snoc fun he => by
    obtain ⟨v, hv⟩ := hstore he
    exact ⟨_, hv, v, rfl⟩
  store_attach := h.store_attach.snoc fun he => ⟨_, hattach he, rfl⟩

theorem Handover.Silent.exit {s : Handover} (h : s.Silent) :
    ({ s with child := .exited } : Handover).Silent :=
  ⟨rfl, h.2⟩

/-- An event that sends and stores nothing. -/
theorem Handover.Known.snoc {pid : Int32} {s : Handover} (h : s.Known pid) {e : HandoverEvent}
    (hwrite : e ≠ .write) (hstore : e ≠ .store) :
    ({ s with log := s.log ++ [e] } : Handover).Known pid where
  unforked ht := by simpa [hwrite.symm] using h.unforked ht
  pipe := h.pipe
  unread ht hw := h.unread ht (by simpa [hwrite.symm] using hw)
  gotPid v hv := by
    obtain ⟨hread, hpid⟩ := h.gotPid v hv
    exact ⟨List.mem_append_left _ hread, by simpa [Handover.Silent, hwrite.symm] using hpid⟩
  stored ht := List.mem_append_left _ (h.stored ht)
  identified hs := by
    simpa [Handover.Identified, Handover.Silent, hwrite.symm] using
      h.identified (by simpa [hstore.symm] using hs)
  wrote hc := List.mem_append_left _ (h.wrote hc)

theorem Handover.Step.known {pid : Int32} {s t : Handover} (h : Handover.Step pid s t)
    (hK : s.Known pid) : t.Known pid := by
  cases h with
  | load ht =>
      have hload := hK.snoc (e := .load) nofun nofun
      exact { hload with
        unforked := fun _ => hload.unforked (.inl ht)
        unread := nofun
        gotPid := nofun
        stored := nofun }
  | fork ht =>
      have hnew := hK.unforked (.inr ht)
      exact { hK.snoc (e := .fork) nofun nofun with
        unforked := nofun
        unread := fun _ hw => absurd hw (by simpa using hnew.2)
        gotPid := nofun
        stored := nofun
        identified := fun hs => (hK.identified (by simpa using hs)).imp_right
          fun hsilent => by simp [hsilent.1] at hnew
        wrote := nofun }
  | @read v ht hp =>
      exact { hK.snoc (e := .read v) nofun nofun with
        unforked := nofun
        pipe := nofun
        unread := nofun
        gotPid := fun w hw => by
          cases hw
          exact ⟨by simp, .inl (hK.pipe v hp)⟩
        stored := nofun }
  | readEof v ht hp hc =>
      have hsilent : .write ∉ s.log := fun hw => by simp [hK.unread ht hw] at hp
      exact { hK.snoc (e := .read v) nofun nofun with
        unforked := nofun
        unread := nofun
        gotPid := fun w hw => by
          cases hw
          exact ⟨by simp, .inr ⟨hc, by simpa using hsilent⟩⟩
        stored := nofun }
  | @store v ht =>
      have hpid := (hK.gotPid v ht).2
      exact {
        unforked := nofun
        pipe := hK.pipe
        unread := nofun
        gotPid := nofun
        stored := fun _ => by simp
        identified := fun _ => by
          rcases hpid with rfl | hsilent
          · exact .inl (by simp [Handover.Identified, initializeArray_pidToTraceStr])
          · exact .inr ⟨hsilent.1, by simpa using hsilent.2⟩
        wrote := fun hc => by simpa using hK.wrote hc }
  | attach ht =>
      exact { hK.snoc (e := .attach) nofun nofun with
        unforked := nofun
        unread := nofun
        gotPid := nofun
        stored := nofun }
  | fail _ =>
      exact { hK with
        unforked := nofun
        unread := nofun
        gotPid := nofun
        stored := nofun }
  | write hc =>
      exact {
        unforked := fun ht => by simp [(hK.unforked ht).1] at hc
        pipe := fun v hv => (Option.some.inj hv).symm
        unread := fun _ _ => rfl
        gotPid := fun v hv => by
          obtain ⟨hread, hpid⟩ := hK.gotPid v hv
          refine ⟨by simpa using hread, hpid.imp_right fun hsilent => ?_⟩
          simp [hsilent.1] at hc
        stored := fun ht => by simpa using hK.stored ht
        identified := fun hs => (hK.identified (by simpa using hs)).imp_right
          fun hsilent => by simp [hsilent.1] at hc
        wrote := fun _ => by simp }
  | execvp hc =>
      have hsent := hK.wrote (.inl hc)
      have hexec := hK.snoc (e := .execvp) nofun nofun
      exact { hexec with
        unforked := fun ht => by simp [(hK.unforked ht).1] at hc
        gotPid := fun v hv => (hexec.gotPid v hv).imp_right
          (·.imp_right fun hsilent => absurd (hsilent.1.symm.trans hc) nofun)
        identified := fun hs => (hexec.identified hs).imp_right
          fun hsilent => absurd (hsilent.1.symm.trans hc) nofun
        wrote := fun _ => List.mem_append_left _ hsent }
  | syscall id hc => exact hK.snoc nofun nofun
  | exit hc =>
      exact { hK with
        unforked := fun ht => absurd (hK.unforked ht).1 hc
        gotPid := fun v hv => (hK.gotPid v hv).imp_right (·.imp_right Handover.Silent.exit)
        identified := fun hs => (hK.identified hs).imp_right Handover.Silent.exit
        wrote := nofun }

theorem Handover.Step.ordered {pid : Int32} {s t : Handover} (h : Handover.Step pid s t)
    (hK : s.Known pid) (hO : Ordered s.log) : Ordered t.log := by
  cases h with
  | load | fork | read | readEof | write => exact hO.snoc nofun nofun nofun
  | store hv => exact hO.snoc nofun (fun _ => ⟨_, (hK.gotPid _ hv).1⟩) nofun
  | attach hs => exact hO.snoc nofun nofun fun _ => hK.stored hs
  | execvp hc => exact hO.snoc (fun _ => hK.wrote (.inl hc)) nofun nofun
  | syscall id hc => exact hO.snoc (fun _ => hK.wrote (.inr hc)) nofun nofun
  | fail | exit => exact hO

theorem Handover.Reachable.invariant {pid : Int32} {s : Handover} (h : Handover.Reachable pid s) :
    s.Known pid ∧ Ordered s.log := by
  induction h with
  | refl =>
      refine ⟨?_, ⟨Precedes.nil _ _, Precedes.nil _ _, Precedes.nil _ _⟩⟩
      constructor <;> simp [Handover.init]
  | tail _ hstep ih => exact ⟨hstep.known ih.1, hstep.ordered ih.1 ih.2⟩

/-- Once it is stored, the PID the child has sent is the one in `program_map`. -/
theorem Handover.Reachable.identified {pid : Int32} {s : Handover}
    (h : Handover.Reachable pid s) (hs : .store ∈ s.log) (hw : .write ∈ s.log) :
    s.Identified pid :=
  (h.invariant.1.identified hs).resolve_right fun hsilent => hsilent.2 hw

/-! ## What is left open -/

/-- The program runs while the tracer stands still. -/
theorem Handover.steps_syscalls {pid : Int32} : ∀ (ids : List Int64) {s : Handover},
    s.child = .running → Relation.ReflTransGen (Handover.Step pid) s
      { s with log := s.log ++ ids.map .syscall }
  | [], s, _ => by simpa using Relation.ReflTransGen.refl
  | id :: ids, s, hc => by
      have hstep : Handover.Step pid s { s with log := s.log ++ [.syscall id] } := .syscall id hc
      have hrest : Relation.ReflTransGen (Handover.Step pid) _ _ :=
        steps_syscalls ids (s := { s with log := s.log ++ [.syscall id] }) hc
      simpa using Relation.ReflTransGen.head hstep hrest

/-- The tracer finishes while the child stands still. -/
theorem Handover.steps_attach {pid v : Int32} {s : Handover} (ht : s.tracer = .forked)
    (hp : s.pipe = some v) : ∃ map, Relation.ReflTransGen (Handover.Step pid) s
      ⟨.attached, s.child, none, map, s.log ++ [.read v, .store, .attach]⟩ := by
  refine ⟨(initializeArray 0 (pidToTraceStr v) s.programMap).2, ?_⟩
  let read : Handover := { s with tracer := .gotPid v, pipe := none, log := s.log ++ [.read v] }
  let stored : Handover := { read with
    tracer := .stored
    programMap := (initializeArray 0 (pidToTraceStr v) s.programMap).2
    log := read.log ++ [.store] }
  have hread : Handover.Step pid s read := .read ht hp
  have hstore : Handover.Step pid read stored := .store rfl
  have hattach : Handover.Step pid stored
    { stored with tracer := .attached, log := stored.log ++ [.attach] } := .attach rfl
  simpa [read, stored] using ((Relation.ReflTransGen.single hread).tail hstore).tail hattach

/-- The tracer has forked, and the child has sent its PID. -/
def Handover.sent (pid : Int32) : Handover :=
  ⟨.forked, .wrote, some pid, Buf.zero _, [.load, .fork, .write]⟩

theorem Handover.reachable_sent (pid : Int32) : Handover.Reachable pid (Handover.sent pid) :=
  ((Relation.ReflTransGen.single (.load rfl)).tail (.fork rfl)).tail (.write rfl)

/-- The child executes the program before the tracer has read anything. -/
theorem Handover.steps_execvp (pid : Int32) (ids : List Int64) :
    Relation.ReflTransGen (Handover.Step pid) (Handover.sent pid)
      ⟨.forked, .running, some pid, Buf.zero _,
        [.load, .fork, .write] ++ .execvp :: ids.map .syscall⟩ := by
  have hexec : Handover.Step pid (Handover.sent pid)
    ⟨.forked, .running, some pid, Buf.zero _, [.load, .fork, .write, .execvp]⟩ := .execvp rfl
  simpa using Relation.ReflTransGen.head hexec (Handover.steps_syscalls ids rfl)

/-- The tracer can attach after any number of the calls that the child makes. -/
theorem Handover.exists_attach_between (pid : Int32) (ids : List Int64)
    {before after : List HandoverEvent} (h : before ++ after = .execvp :: ids.map .syscall) :
    ∃ s, Handover.Reachable pid s ∧ s.log =
      [.load, .fork, .write] ++ before ++ [.read pid, .store, .attach] ++ after := by
  have hsent := Handover.reachable_sent pid
  cases before with
  | nil =>
      obtain rfl : after = .execvp :: ids.map .syscall := h
      obtain ⟨map, hattach⟩ := Handover.steps_attach (s := Handover.sent pid) rfl rfl
      have hexec : Handover.Step pid
        ⟨.attached, .wrote, none, map, [.load, .fork, .write, .read pid, .store, .attach]⟩
        ⟨.attached, .running, none, map,
          [.load, .fork, .write, .read pid, .store, .attach, .execvp]⟩ := .execvp rfl
      refine ⟨_, ((hsent.trans hattach).tail hexec).trans
        (Handover.steps_syscalls ids rfl), ?_⟩
      simp
  | cons e before =>
      obtain ⟨rfl, hids⟩ : e = .execvp ∧ before ++ after = ids.map .syscall := by simpa using h
      obtain ⟨ids₁, ids₂, rfl, rfl, rfl⟩ := List.append_eq_map_iff.mp hids
      have hearly := hsent.trans (Handover.steps_execvp pid ids₁)
      obtain ⟨map, hattach⟩ := Handover.steps_attach
        (s := ⟨.forked, .running, some pid, Buf.zero _,
          [.load, .fork, .write] ++ .execvp :: ids₁.map .syscall⟩) rfl rfl
      refine ⟨_, (hearly.trans hattach).trans (Handover.steps_syscalls ids₂ rfl), ?_⟩
      simp

/-- **The order of a handover.**  In every run the PID is sent before the program
runs, read before it is stored, and stored before the programs are attached.
Nothing makes the program wait: whatever calls it makes from `execvp` on, the
tracer can come to the read, the store and the attach after any of them. -/
theorem handover_order (pid : Int32) :
    (∀ s, Handover.Reachable pid s →
      Precedes (· = .write) (fun e => e.fromExec = true) s.log ∧
      Precedes (fun e => ∃ v, e = .read v) (· = .store) s.log ∧
      Precedes (· = .store) (· = .attach) s.log) ∧
    (∀ (ids : List Int64) (before after : List HandoverEvent),
      before ++ after = .execvp :: ids.map .syscall →
        ∃ s, Handover.Reachable pid s ∧ s.log =
          [.load, .fork, .write] ++ before ++ [.read pid, .store, .attach] ++ after) := by
  refine ⟨fun s hs => ?_, fun ids before after h => Handover.exists_attach_between pid ids h⟩
  obtain ⟨-, hwrite, hread, hstore⟩ := hs.invariant
  exact ⟨hwrite, hread, hstore⟩

theorem handover_order_late :
    ∃ s, Handover.Reachable 7 s ∧ s.log =
      [.load, .fork, .write] ++ [.execvp, .syscall 59] ++ [.read 7, .store, .attach] ++ [] :=
  (handover_order 7).2 [59] [.execvp, .syscall 59] [] rfl

/-- The program can make a call before the identifier is stored. -/
theorem execvp_before_store :
    ¬ ∀ (pid : Int32) (s : Handover), Handover.Reachable pid s → s.NoEarlyCall := by
  intro h
  have hrun := (Handover.reachable_sent 7).trans (Handover.steps_execvp 7 [])
  have hearly := h 7 _ hrun [.load, .fork, .write] .execvp [] rfl rfl
  simp at hearly

end EPtracer
