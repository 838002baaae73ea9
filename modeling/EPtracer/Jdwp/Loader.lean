import EPtracer.Lib.CString
import EPtracer.Lib.Procedure
import EPtracer.Lib.Trace

/-!
# The loader

`main` of the detector loads the filter, attaches it to an interface and polls the
ring buffer until a signal asks it to stop or the polling fails.  The signal
handler only sets `exiting`, and `main` reads it before each poll.  `err` has no
value before the first poll, so a read of it there can give anything.

`jdwp_ends` says what the process has done when it ends, on every path.  The object
and the buffer are released together at the end, or nothing is released, which is
when the program has no descriptor or cannot be attached.
-/

namespace EPtracer

open CText Procedure Trace

/-! ## The calls -/

/-- `IF_NAMESIZE`. -/
def ifNamesize : Nat := 16

/-- `EINTR`. -/
def eintr : Int32 := 4

/-- The signals `main` handles. -/
inductive JdwpSignal where
  | sigint | sigterm
deriving DecidableEq

/-- The calls of `main`, and its uses of `exiting` and `err`.  A pointer is `true`
if it is not null. -/
inductive JdwpCall where
  | setPrint
  | setrlimit
  | signal (sig : JdwpSignal)
  | ifNametoindex (ifname : Buf ifNamesize)
  | openAndLoad
  | setType
  | programFd
  | mapFd
  | ringBufferNew (fd : Int32)
  | attachXdp (ifindex : Int32)
  | exiting
  | ringBufferPoll
  | setErr (err : Int32)
  | getErr
  | ringBufferFree (rb : Bool)
  | destroy
  | fprintf (text : String)
  | printf (text : String)

/-- What each call returns.  A result that is only compared with zero is a `Bool`. -/
abbrev jdwpCalls : Interface where
  Call := JdwpCall
  Answer
    | .setrlimit | .ifNametoindex _ | .programFd | .mapFd | .ringBufferPoll | .getErr => Int32
    | .openAndLoad | .ringBufferNew _ | .attachXdp _ | .exiting => Bool
    | .setPrint | .signal _ | .setType | .setErr _ | .ringBufferFree _ | .destroy
    | .fprintf _ | .printf _ => Unit

/-- A procedure of the loader. -/
abbrev JdwpProc := Proc jdwpCalls

/-- A call of the loader, with its answer. -/
abbrev JdwpEvent := Event jdwpCalls

/-- The procedure that makes one call. -/
def jdwpCall (c : JdwpCall) : JdwpProc (jdwpCalls.Answer c) := Proc.perform (I := jdwpCalls) c

/-! ## `main` -/

/-- `bump_memlock_rlimit()`. -/
def bumpMemlockRlimit : JdwpProc Unit := do
  let failed ← jdwpCall .setrlimit
  if failed ≠ 0 then
    jdwpCall (.fprintf "Failed to increase RLIMIT_MEMLOCK limit!\n")
    .exit 1

/-- `main`, from `cleanup:` on. -/
def jdwpCleanup (rb : Bool) : JdwpProc Int32 := do
  jdwpCall (.ringBufferFree rb)
  jdwpCall .destroy
  let err ← jdwpCall .getErr
  return if err < 0 then -err else 0

/-- A turn of `while (!exiting)`.  The loop ends with `some ()`. -/
def jdwpTurn (exiting : Bool) : JdwpProc (Option Unit) := do
  if exiting then return some ()
  else
    let err ← jdwpCall .ringBufferPoll
    jdwpCall (.setErr err)
    if err = -eintr then
      jdwpCall (.setErr 0)
      return some ()
    else if err < 0 then
      jdwpCall (.printf "Error polling ring buffer: %d\n")
      return some ()
    else return none

/-- `main`, from `bpf_program__attach_xdp` on. -/
def jdwpAttach (ifindex : Int32) : JdwpProc Int32 := do
  if !(← jdwpCall (.attachXdp ifindex)) then
    jdwpCall (.printf "attach error\n")
    return 1
  else
    jdwpCall (.printf "Attach XDP success\n")
    .loop .exiting jdwpTurn fun _ => jdwpCleanup true

/-- `main`, from `jdwp_bpf__open_and_load` on. -/
def jdwpLoad (ifindex : Int32) : JdwpProc Int32 := do
  if !(← jdwpCall .openAndLoad) then
    jdwpCall (.fprintf "Failed to open and load BPF skel\n")
    return 1
  else
    jdwpCall .setType
    let progFd ← jdwpCall .programFd
    if progFd < 0 then
      jdwpCall (.fprintf "Failed to find XDP program: %s\n")
      return 1
    else
      let fd ← jdwpCall .mapFd
      if !(← jdwpCall (.ringBufferNew fd)) then
        jdwpCall (.setErr (-1))
        jdwpCall (.fprintf "Failed to create ring buffer\n")
        jdwpCleanup false
      else jdwpAttach ifindex

/-- `main(argc, argv)`. -/
def jdwpMain (argv : List CStr) : JdwpProc Int32 := do
  jdwpCall .setPrint
  bumpMemlockRlimit
  jdwpCall (.signal .sigint)
  jdwpCall (.signal .sigterm)
  match argv with
  | [_, name] =>
      let ifindex ← jdwpCall (.ifNametoindex (strncpy ifNamesize name))
      if ifindex = 0 then
        jdwpCall (.fprintf "Failed to get ifindex for %s: %s\n")
        return 1
      else jdwpLoad ifindex
  | _ =>
      jdwpCall (.fprintf "Usage: %s <ifname>\n")
      return 1

/-! ## What `main` guarantees -/

/-- What `err` holds after some calls. -/
def errAfter (h : History jdwpCalls) : Option Int32 :=
  h.foldl (fun err e => match e with
    | ⟨.setErr err, _⟩ => some err
    | _ => err) none

/-- `err` has the value it was given, if it was given one. -/
def ReadsErr (h : History jdwpCalls) : JdwpEvent → Prop
  | ⟨.getErr, err⟩ => ∀ given, errAfter h = some given → err = given
  | _ => True

theorem readsErr_of_ne {h : History jdwpCalls} {e : JdwpEvent} (he : e.call ≠ .getErr) :
    ReadsErr h e := by
  obtain ⟨c, a⟩ := e
  cases c with
  | getErr => exact absurd rfl he
  | _ => trivial

/-- The call frees the ring buffer or destroys the object. -/
def JdwpReleases (e : JdwpEvent) : Prop := (∃ rb, e.call = .ringBufferFree rb) ∨ e.call = .destroy

section

variable (h : History jdwpCalls)

/-- The filter can be attached: the object and the buffer are there, and a signal
does not end the process any more. -/
structure JdwpAttachable : Prop where
  loaded : ⟨.openAndLoad, true⟩ ∈ h
  buffer : ∃ fd, ⟨.ringBufferNew fd, true⟩ ∈ h
  signals : ∀ sig, ⟨.signal sig, ()⟩ ∈ h
  kept : ∀ e ∈ h, ¬ JdwpReleases e

/-- The filter is attached to the interface. -/
structure JdwpAttached : Prop extends JdwpAttachable h where
  attached : ∃ ifindex, ifindex ≠ 0 ∧ ⟨.attachXdp ifindex, true⟩ ∈ h

/-- What holds before each call of `main`.  The filter is attached to an interface that
was found, and a poll that failed is the last one. -/
def jdwpGuar : JdwpEvent → Prop
  | ⟨.attachXdp ifindex, _⟩ => ifindex ≠ 0 ∧ JdwpAttachable h
  | ⟨.ringBufferPoll, _⟩ => JdwpAttached h ∧ ∀ ret, ⟨.ringBufferPoll, ret⟩ ∈ h → 0 ≤ ret
  | _ => True

/-- `main` returns 1 here, and releases nothing. -/
inductive JdwpLeft : Prop where
  | notLoaded : ⟨.openAndLoad, true⟩ ∉ h → JdwpLeft
  | noProgram {fd : Int32} : ⟨.programFd, fd⟩ ∈ h → fd < 0 → JdwpLeft
  | notAttached {ifindex : Int32} : ⟨.attachXdp ifindex, false⟩ ∈ h → JdwpLeft

/-- What has led to `cleanup:`, and the result. -/
inductive JdwpStopped : Bool → Int32 → Prop where
  | noBuffer {fd : Int32} : ⟨.ringBufferNew fd, false⟩ ∈ h → JdwpStopped false 1
  /-- A signal, after a poll or in one. -/
  | asked {ret : Int32} : JdwpAttached h → ⟨.ringBufferPoll, ret⟩ ∈ h →
      (∀ ret, ⟨.ringBufferPoll, ret⟩ ∈ h → 0 ≤ ret ∨ ret = -eintr) → JdwpStopped true 0
  /-- A signal before the first poll. -/
  | notPolled {status : Int32} : JdwpAttached h → (∀ ret, ⟨.ringBufferPoll, ret⟩ ∉ h) →
      JdwpStopped true status
  | failed {ret : Int32} : JdwpAttached h → ⟨.ringBufferPoll, ret⟩ ∈ h → ret < 0 → ret ≠ -eintr →
      JdwpStopped true (-ret)

/-- `main` has returned. -/
inductive JdwpEnds : Int32 → Prop where
  | left : JdwpLeft h → (∀ e ∈ h, ¬ JdwpReleases e) → JdwpEnds 1
  | released {before : History jdwpCalls} {rb : Bool} {err status : Int32} :
      h = before ++ [⟨.ringBufferFree rb, ()⟩, ⟨.destroy, ()⟩, ⟨.getErr, err⟩] →
      (∀ e ∈ before, ¬ JdwpReleases e) → ⟨.openAndLoad, true⟩ ∈ before →
      JdwpStopped before rb status → JdwpEnds status

end

/-- What `main` guarantees, when `exiting` and `err` read what was stored last.  It ends
the process itself if the object was not loaded. -/
def jdwpContract : Contract jdwpCalls where
  rely := ReadsErr
  guar := jdwpGuar
  exits h status := status = 1 ∧ ⟨.openAndLoad, true⟩ ∉ h

/-! ## The paths -/

theorem JdwpAttachable.snoc {h : History jdwpCalls} (hh : JdwpAttachable h) {e : JdwpEvent}
    (he : ¬ JdwpReleases e) : JdwpAttachable (h ++ [e]) := by
  obtain ⟨fd, hfd⟩ := hh.buffer
  exact ⟨List.mem_append_left _ hh.loaded, ⟨fd, List.mem_append_left _ hfd⟩,
    fun sig => List.mem_append_left _ (hh.signals sig), forall_mem_snoc hh.kept he⟩

theorem JdwpAttached.snoc {h : History jdwpCalls} (hh : JdwpAttached h) {e : JdwpEvent}
    (he : ¬ JdwpReleases e) : JdwpAttached (h ++ [e]) := by
  obtain ⟨ifindex, hne, hattached⟩ := hh.attached
  exact ⟨hh.toJdwpAttachable.snoc he, ifindex, hne, List.mem_append_left _ hattached⟩

theorem jdwpCleanup_wp {h : History jdwpCalls} {rb : Bool} (hkept : ∀ e ∈ h, ¬ JdwpReleases e)
    (hloaded : ⟨.openAndLoad, true⟩ ∈ h)
    (hstopped : ∀ err, ReadsErr h ⟨.getErr, err⟩ →
      JdwpStopped h rb (if err < 0 then -err else 0)) :
    (jdwpCleanup rb).wp jdwpContract (fun status h' => JdwpEnds h' status) h := by
  refine fun _ _ => ⟨trivial, fun _ _ => ⟨trivial, fun err herr => ⟨trivial, ?_⟩⟩⟩
  rw [List.append_assoc, List.append_assoc]
  refine .released rfl hkept hloaded (hstopped err ?_)
  intro given hgiven
  refine herr given ?_
  simpa [errAfter] using hgiven

/-- What holds before each turn of the loop. -/
structure JdwpPolling (h : History jdwpCalls) : Prop extends JdwpAttached h where
  polls : ∀ ret, ⟨.ringBufferPoll, ret⟩ ∈ h → 0 ≤ ret
  err : ∀ ret, ⟨.ringBufferPoll, ret⟩ ∈ h → ∃ err, errAfter h = some err ∧ 0 ≤ err

/-- What holds after the loop. -/
structure JdwpPolled (h : History jdwpCalls) : Prop extends JdwpAttached h where
  stopped : ∀ err, ReadsErr h ⟨.getErr, err⟩ → JdwpStopped h true (if err < 0 then -err else 0)

theorem errAfter_setErr (h : History jdwpCalls) (err : Int32) :
    errAfter (h ++ [⟨.setErr err, ()⟩]) = some err := by
  simp [errAfter]

theorem jdwpTurn_wp {h : History jdwpCalls} (hh : JdwpPolling h) (exiting : Bool) :
    (jdwpTurn exiting).wp jdwpContract
      (fun | none, h' => JdwpPolling h'
           | some (), h' => JdwpPolled h') (h ++ [⟨.exiting, exiting⟩]) := by
  have hattached : JdwpAttached (h ++ [⟨.exiting, exiting⟩]) :=
    hh.toJdwpAttached.snoc (by simp [JdwpReleases])
  have hpolls : ∀ ret, ⟨.ringBufferPoll, ret⟩ ∈ h ++ [⟨.exiting, exiting⟩] → 0 ≤ ret := by
    simpa using hh.polls
  cases exiting with
  | true =>
      refine ⟨hattached, fun err herr => ?_⟩
      by_cases hpolled : ∃ ret, ⟨.ringBufferPoll, ret⟩ ∈ h
      · obtain ⟨ret, hret⟩ := hpolled
        obtain ⟨given, hgiven, hpos⟩ := hh.err ret hret
        obtain rfl : err = given := herr given (by simpa [errAfter] using hgiven)
        rw [if_neg (Int32.not_lt.mpr hpos)]
        exact .asked hattached (List.mem_append_left _ hret) fun ret hret => .inl (hpolls ret hret)
      · refine .notPolled hattached fun ret hret => hpolled ⟨ret, ?_⟩
        simpa using hret
  | false =>
      refine Proc.wp_call.mpr fun ret _ => ⟨⟨hattached, hpolls⟩, fun _ _ => ⟨trivial, ?_⟩⟩
      generalize hlog : h ++ [⟨.exiting, false⟩] ++ [⟨.ringBufferPoll, ret⟩] ++
        [⟨.setErr ret, ()⟩] = h₁
      have hattached : JdwpAttached h₁ := by
        rw [← hlog]
        exact (hattached.snoc (by simp [JdwpReleases])).snoc (by simp [JdwpReleases])
      have hlast : ⟨.ringBufferPoll, ret⟩ ∈ h₁ := by simp [← hlog]
      have hpolls (ret' : Int32) (hmem : ⟨.ringBufferPoll, ret'⟩ ∈ h₁) : 0 ≤ ret' ∨ ret' = ret := by
        rw [← hlog] at hmem
        simp only [List.mem_append, List.mem_singleton, Event.mk.injEq, reduceCtorEq, false_and,
          or_false, heq_eq_eq, true_and] at hmem
        exact hmem.imp_left (hh.polls ret')
      have herr : errAfter h₁ = some ret := by
        rw [← hlog, errAfter_setErr]
      split
      next hintr =>
        refine fun _ _ => ⟨trivial, hattached.snoc (by simp [JdwpReleases]), fun err hread => ?_⟩
        obtain rfl : err = 0 := hread 0 (errAfter_setErr h₁ 0)
        refine .asked (hattached.snoc (by simp [JdwpReleases])) (List.mem_append_left _ hlast)
          fun ret' hmem => ?_
        rw [← hintr]
        exact hpolls ret' (by simpa using hmem)
      next hintr =>
        split
        next hneg =>
          refine fun _ _ => ⟨trivial, hattached.snoc (by simp [JdwpReleases]), fun err hread => ?_⟩
          obtain rfl : err = ret := hread ret (by simpa [errAfter] using herr)
          rw [if_pos hneg]
          exact .failed (hattached.snoc (by simp [JdwpReleases])) (List.mem_append_left _ hlast)
            hneg hintr
        next hneg =>
          have hpos : 0 ≤ ret := Int32.not_lt.mp hneg
          refine ⟨hattached, fun ret' hmem => ?_, fun ret' hmem => ⟨ret, herr, hpos⟩⟩
          rcases hpolls ret' hmem with h | rfl
          · exact h
          · exact hpos

theorem jdwpAttach_wp {ifindex : Int32} (hne : ifindex ≠ 0) {h : History jdwpCalls}
    (hh : JdwpAttachable h) (hnotPolled : ∀ ret, ⟨.ringBufferPoll, ret⟩ ∉ h) :
    (jdwpAttach ifindex).wp jdwpContract (fun status h' => JdwpEnds h' status) h := by
  refine Proc.wp_call.mpr fun attached _ => ⟨⟨hne, hh⟩, ?_⟩
  have hkept (text : String) :
      JdwpAttachable (h ++ [⟨.attachXdp ifindex, attached⟩] ++ [⟨.printf text, ()⟩]) :=
    (hh.snoc (by simp [JdwpReleases])).snoc (by simp [JdwpReleases])
  cases attached with
  | false =>
      refine fun _ _ => ⟨trivial, .left ?_ (hkept _).kept⟩
      exact @JdwpLeft.notAttached _ ifindex (by simp)
  | true =>
      refine fun _ _ => ⟨trivial, JdwpPolling, ⟨⟨hkept _, ifindex, hne, ?_⟩, ?_, ?_⟩, ?_⟩
      · simp
      · intro ret hmem
        simp [hnotPolled] at hmem
      · intro ret hmem
        simp [hnotPolled] at hmem
      · intro h hpolling exiting _
        refine ⟨trivial, Proc.wp_mono ?_ (jdwpTurn_wp hpolling exiting)⟩
        intro r h' hr
        cases r with
        | none => exact hr
        | some _ => exact jdwpCleanup_wp hr.kept hr.loaded hr.stopped

/-- What holds until the object is loaded. -/
structure JdwpUnloaded (h : History jdwpCalls) : Prop where
  notLoaded : ⟨.openAndLoad, true⟩ ∉ h
  notPolled : ∀ ret, ⟨.ringBufferPoll, ret⟩ ∉ h
  kept : ∀ e ∈ h, ¬ JdwpReleases e

theorem jdwpLoad_wp {ifindex : Int32} (hne : ifindex ≠ 0) {h : History jdwpCalls}
    (hh : JdwpUnloaded h) (hsignals : ∀ sig, ⟨.signal sig, ()⟩ ∈ h) :
    (jdwpLoad ifindex).wp jdwpContract (fun status h' => JdwpEnds h' status) h := by
  simp only [jdwpLoad, jdwpCall, Proc.perform, Proc.call_bind, Proc.ret_bind]
  refine Proc.wp_call.mpr fun loaded _ => ⟨trivial, ?_⟩
  cases loaded with
  | false =>
      refine fun _ _ => ⟨trivial, .left (.notLoaded ?_) ?_⟩
      · simp [hh.notLoaded]
      · simpa [JdwpReleases, or_imp, forall_and] using hh.kept
  | true =>
      refine fun _ _ => ⟨trivial, Proc.wp_call.mpr fun progFd _ => ⟨trivial, ?_⟩⟩
      split
      next hneg =>
        refine fun _ _ => ⟨trivial, .left ?_ ?_⟩
        · exact @JdwpLeft.noProgram _ progFd (by simp) hneg
        · simpa [JdwpReleases, or_imp, forall_and] using hh.kept
      next =>
        refine fun fd _ => ⟨trivial, fun buffer _ => ⟨trivial, ?_⟩⟩
        cases buffer with
        | false =>
            refine fun _ _ => ⟨trivial, fun _ _ => ⟨trivial, jdwpCleanup_wp ?_ ?_ ?_⟩⟩
            · simpa [JdwpReleases, or_imp, forall_and] using hh.kept
            · simp
            · intro err herr
              obtain rfl : err = -1 := herr (-1) (by simp [errAfter])
              exact @JdwpStopped.noBuffer _ fd (by simp)
        | true =>
            refine jdwpAttach_wp hne ⟨?_, ⟨fd, ?_⟩, fun sig => ?_, ?_⟩ fun ret => ?_
            · simp
            · simp
            · simp [hsignals sig]
            · simpa [JdwpReleases, or_imp, forall_and] using hh.kept
            · simp [hh.notPolled]

theorem bumpMemlockRlimit_wp (h : History jdwpCalls) (hnotLoaded : ⟨.openAndLoad, true⟩ ∉ h) :
    bumpMemlockRlimit.wp jdwpContract (fun _ h' => ∃ failed, h' = h ++ [⟨.setrlimit, failed⟩])
      h := by
  simp only [bumpMemlockRlimit, jdwpCall, Proc.perform, Proc.call_bind, Proc.ret_bind]
  refine Proc.wp_call.mpr fun failed _ => ⟨trivial, ?_⟩
  split
  next => exact fun _ _ => ⟨trivial, rfl, by simp [hnotLoaded]⟩
  next => exact ⟨failed, rfl⟩

theorem jdwpMain_wp (argv : List CStr) :
    (jdwpMain argv).wp jdwpContract (fun status h' => JdwpEnds h' status) [] := by
  refine Proc.wp_bind_iff.mpr fun _ _ => ⟨trivial, Proc.wp_bind_iff.mpr (Proc.wp_mono ?_
    (bumpMemlockRlimit_wp _ (by simp)))⟩
  rintro - h ⟨failed, rfl⟩
  refine fun _ _ => ⟨trivial, fun _ _ => ⟨trivial, ?_⟩⟩
  split
  next program name =>
    simp only [jdwpCall, Proc.perform, Proc.call_bind, Proc.ret_bind]
    refine Proc.wp_call.mpr fun ifindex _ => ⟨trivial, ?_⟩
    split
    next => exact fun _ _ => ⟨trivial, .left (.notLoaded (by simp)) (by simp [JdwpReleases])⟩
    next hne =>
      refine jdwpLoad_wp hne ⟨by simp, fun ret => by simp, by simp [JdwpReleases]⟩ fun sig => ?_
      cases sig with
      | sigint => simp
      | sigterm => simp
  next => exact fun _ _ => ⟨trivial, .left (.notLoaded (by simp)) (by simp [JdwpReleases])⟩

/-- **How the loader ends.**  The filter is polled only while it is attached, until
a poll fails.  `main` returns 0 after a poll if it was asked to stop, and the code
of the error if a poll failed.  It releases the buffer and then the object, once,
or nothing. -/
theorem jdwp_ends (argv : List CStr) (h : History jdwpCalls) (p : JdwpProc Int32)
    (hexec : (jdwpMain argv).Exec h p) (herr : Each ReadsErr h) :
    Each jdwpGuar h ∧ (∀ status, p = .ret status → JdwpEnds h status) ∧
      ∀ status, p = .exit status → status = 1 ∧ ⟨.openAndLoad, true⟩ ∉ h := by
  obtain ⟨hp, hguar⟩ := Proc.wp_exec (jdwpMain_wp argv) hexec herr
  rw [List.nil_append] at hp
  refine ⟨hguar, ?_, ?_⟩
  · rintro status rfl
    exact hp
  · rintro status rfl
    exact hp

/-- A poll that reads three records, and one in which a signal comes.  What is left
is to read `err`. -/
def interruptedPolls : History jdwpCalls :=
  [⟨.setPrint, ()⟩, ⟨.setrlimit, (0 : Int32)⟩, ⟨.signal .sigint, ()⟩, ⟨.signal .sigterm, ()⟩,
    ⟨.ifNametoindex (strncpy ifNamesize ⟨[108, 111], by decide⟩), (1 : Int32)⟩,
    ⟨.openAndLoad, true⟩, ⟨.setType, ()⟩, ⟨.programFd, (5 : Int32)⟩, ⟨.mapFd, (4 : Int32)⟩,
    ⟨.ringBufferNew 4, true⟩, ⟨.attachXdp 1, true⟩, ⟨.printf "Attach XDP success\n", ()⟩,
    ⟨.exiting, false⟩, ⟨.ringBufferPoll, (3 : Int32)⟩, ⟨.setErr 3, ()⟩,
    ⟨.exiting, false⟩, ⟨.ringBufferPoll, -eintr⟩, ⟨.setErr (-eintr), ()⟩, ⟨.setErr 0, ()⟩,
    ⟨.ringBufferFree true, ()⟩, ⟨.destroy, ()⟩]

theorem jdwp_ends_interrupted : JdwpEnds (interruptedPolls ++ [⟨.getErr, (0 : Int32)⟩]) 0 := by
  refine (jdwp_ends [⟨[], by decide⟩, ⟨[108, 111], by decide⟩] _ (.ret 0) ?_ ?_).2.1 0 rfl
  · exact .call <| .call <| .call <| .call <| .call <| .call <| .call <| .call <| .call <| .call <|
      .call <| .call <| .loop <| .call <| .call <| .loop <| .call <|
      .call <| .call <| .call <| .call <| .call <| .refl _
  · refine Each.snoc (.of_forall fun e he before => readsErr_of_ne ?_) fun given hgiven => ?_
    · revert e
      simp [interruptedPolls]
    · exact Option.some.inj hgiven

end EPtracer
