import EPtracer.Jdwp.Event
import EPtracer.Lib.RingAccount

/-!
# The stream of records

The filter runs on every frame the interface receives, on several CPUs at once.
It shares one ring buffer with the loop in `main` that polls it.  `filterProg`
is the filter as a producer of that buffer: `bpf_ringbuf_output` is a
reservation and a submission in one, and its result is ignored.

`jdwp_stream` says what holds of every interleaving of frames and polls.  No
frame is held back, whatever the state of the buffer.  A record that is printed
is one of a frame that was received, once, with the text of that frame.
-/

namespace EPtracer

open CText RingBuffer

/-- A frame, and what the locals of the detector hold when it runs. -/
abbrev FrameCall := XdpMd × JdwpLocals

/-- The number of records `rb` holds.  A record has 264 bytes and a header of 8,
and the kernel never fills the last byte of the buffer. -/
def jdwpRbRecords : Nat := (512 * 1024 - 1) / (8 + 264)

/-- `filter_jdwp_packets(ctx)` as a producer, with the action it returns as its
effect. -/
def filterProg (call : FrameCall) : Prog JdwpData XdpAction :=
  let detection := filterJdwpPackets call.1 true call.2
  match detection.output with
  | none => .emit detection.action .ret
  | some r => .output r (.emit detection.action .ret)

/-- A state of the calls of the detector and of their buffer. -/
abbrev JdwpState := State FrameCall JdwpData XdpAction

/-- The detector makes a record of the frame. -/
structure HasRecord (frame : Bytes) : Prop where
  reaches : ReachesTcp frame
  data : dataEnd frame ≤ frame.length

theorem filterJdwpPackets_output (ctx : XdpMd) (room : Bool) (locals : JdwpLocals) :
    (HasRecord ctx.frame ∧ (filterJdwpPackets ctx room locals).output =
        if room then some (jdwpRecord ctx locals) else none) ∨
      (¬ HasRecord ctx.frame ∧ (filterJdwpPackets ctx room locals).output = none) := by
  rcases detectJdwpProtocol_cases ctx room locals with
    ⟨hnot, hout, -⟩ | ⟨-, hlt, hrun⟩ | ⟨hreach, hlen, hrun⟩
  · exact .inr ⟨fun h => hnot h.reaches, hout⟩
  · refine .inr ⟨fun h => Nat.not_lt.mpr h.data hlt, ?_⟩
    rw [filterJdwpPackets, hrun]
  · refine .inl ⟨⟨hreach, hlen⟩, ?_⟩
    rw [filterJdwpPackets, hrun]

/-- The program of a frame: it passes the frame, with its record or without
one. -/
theorem filterProg_cases (call : FrameCall) :
    (HasRecord call.1.frame ∧
      filterProg call = .output (jdwpRecord call.1 call.2) (.emit .pass .ret)) ∨
    (¬ HasRecord call.1.frame ∧ filterProg call = .emit .pass .ret) := by
  rcases filterJdwpPackets_output call.1 true call.2 with ⟨hhas, hout⟩ | ⟨hnot, hout⟩
  · refine .inl ⟨hhas, ?_⟩
    rw [filterProg, hout]
    rfl
  · refine .inr ⟨hnot, ?_⟩
    rw [filterProg, hout]
    rfl

theorem filterProg_oneShot (call : FrameCall) : (filterProg call).OneShot := by
  rcases filterProg_cases call with ⟨-, hp⟩ | ⟨-, hp⟩ <;> rw [hp]
  · exact Prog.output_oneShot _ trivial
  · trivial

/-- The actions of the filter on a frame, when it has returned. -/
theorem filterProg_exec {call : FrameCall} {l : List (Act JdwpData XdpAction)}
    (he : (filterProg call).Exec l .ret) :
    (¬ HasRecord call.1.frame ∧ l = [.emit .pass]) ∨
    (HasRecord call.1.frame ∧ l = [.reserve none, .emit .pass]) ∨
    (HasRecord call.1.frame ∧ ∃ k old,
      l = [.reserve (some (k, old)), .submit k (jdwpRecord call.1 call.2), .emit .pass]) := by
  have hpass {l : List (Act JdwpData XdpAction)}
      (he : (Prog.emit XdpAction.pass .ret : Prog JdwpData XdpAction).Exec l .ret) :
      l = [.emit .pass] := by
    cases he with
    | step hs he =>
        cases hs
        rw [(Prog.Exec.of_ret he).1]
  rcases filterProg_cases call with ⟨hhas, hp⟩ | ⟨hnot, hp⟩ <;> rw [hp] at he
  · rcases Prog.output_exec he with ⟨l', rfl, he'⟩ | ⟨k, old, l', rfl, he'⟩
    · exact .inr (.inl ⟨hhas, by rw [hpass he']⟩)
    · exact .inr (.inr ⟨hhas, k, old, by rw [hpass he']⟩)
  · exact .inl ⟨hnot, hpass he⟩

/-- The producer is the filter: it returns the same action, and submits the same
records when the buffer is full and when it is not. -/
theorem filterProg_agrees {call : FrameCall} {l : List (Act JdwpData XdpAction)}
    (he : (filterProg call).Exec l .ret) :
    ∃ room, (room = true ↔ Act.reserve none ∉ l) ∧
      submissions l = (filterJdwpPackets call.1 room call.2).output.toList ∧
      Act.emit (filterJdwpPackets call.1 room call.2).action ∈ l := by
  rcases filterProg_exec he with ⟨hnot, rfl⟩ | ⟨hhas, rfl⟩ | ⟨hhas, k, old, rfl⟩
  · refine ⟨true, by simp, ?_, by simp [filterJdwpPackets]⟩
    rcases filterJdwpPackets_output call.1 true call.2 with ⟨hhas, -⟩ | ⟨-, hout⟩
    · exact absurd hhas hnot
    · rw [hout]
      rfl
  · refine ⟨false, by simp, ?_, by simp [filterJdwpPackets]⟩
    rcases filterJdwpPackets_output call.1 false call.2 with ⟨-, hout⟩ | ⟨-, hout⟩ <;>
    · rw [hout]
      rfl
  · refine ⟨true, by simp, ?_, by simp [filterJdwpPackets]⟩
    rcases filterJdwpPackets_output call.1 true call.2 with ⟨-, hout⟩ | ⟨hnot, -⟩
    · rw [hout]
      rfl
    · exact absurd hhas hnot

/-- The filter returns no other action than to pass the frame. -/
theorem filterProg_action {call : FrameCall} {l : List (Act JdwpData XdpAction)}
    {q : Prog JdwpData XdpAction} (he : (filterProg call).Exec l q) {action : XdpAction}
    (hmem : Act.emit action ∈ l) : action = .pass := by
  obtain ⟨l', he', -⟩ := Prog.exists_exec 0 JdwpData.zero q
  have hall : Act.emit action ∈ l ++ l' := List.mem_append_left l' hmem
  rcases filterProg_exec (he.trans he') with ⟨-, hl⟩ | ⟨-, hl⟩ | ⟨-, k, old, hl⟩
  all_goals
    rw [hl] at hall
    simpa using hall

/-- The filter passes a frame, and submits a record exactly if the frame has one and
the buffer has room. -/
theorem filterProg_passes {call : FrameCall} {l : List (Act JdwpData XdpAction)}
    (he : (filterProg call).Exec l .ret) :
    Act.emit .pass ∈ l ∧
      ((∃ k r, Act.submit k r ∈ l) ↔ HasRecord call.1.frame ∧ Act.reserve none ∉ l) := by
  rcases filterProg_exec he with ⟨hnot, rfl⟩ | ⟨hhas, rfl⟩ | ⟨hhas, k, old, rfl⟩
  · exact ⟨by simp, iff_of_false (by simp) fun h => hnot h.1⟩
  · exact ⟨by simp, iff_of_false (by simp) fun h => h.2 (by simp)⟩
  · exact ⟨by simp, iff_of_true ⟨k, jdwpRecord call.1 call.2, by simp⟩ ⟨hhas, by simp⟩⟩

/-- A record the filter submits is that of the frame. -/
theorem filterProg_submit {call : FrameCall} {l : List (Act JdwpData XdpAction)}
    {q : Prog JdwpData XdpAction} (he : (filterProg call).Exec l q) {k : Nat} {r : JdwpData}
    (hmem : Act.submit k r ∈ l) : HasRecord call.1.frame ∧ r = jdwpRecord call.1 call.2 := by
  obtain ⟨l', he', -⟩ := Prog.exists_exec 0 JdwpData.zero q
  have hall : Act.submit k r ∈ l ++ l' := List.mem_append_left l' hmem
  rcases filterProg_exec (he.trans he') with ⟨-, hl⟩ | ⟨-, hl⟩ | ⟨hhas, k', old, hl⟩
  · simp [hl] at hall
  · simp [hl] at hall
  · rw [hl] at hall
    obtain ⟨-, rfl⟩ : k = k' ∧ r = jdwpRecord call.1 call.2 := by simpa using hall
    exact ⟨hhas, rfl⟩

/-- The record of a frame is what the detector outputs. -/
theorem HasRecord.output {ctx : XdpMd} (h : HasRecord ctx.frame) (locals : JdwpLocals) :
    (detectJdwpProtocol ctx true locals).output = some (jdwpRecord ctx locals) :=
  (output_eq_some_iff _ _ _ _).mpr ⟨h.reaches, h.data, rfl, rfl⟩

/-! ## Runs -/

theorem jdwp_invariant {cap : Nat} {s : JdwpState} (h : Reachable cap filterProg s) :
    Invariant cap filterProg s :=
  h.invariant filterProg_oneShot

/-- **The stream of records.**  Over any interleaving of frames and polls, every
frame is passed.  Its record is submitted exactly if it has one and the buffer
has room.  The records that are handed over are of different frames and in an
order that no two frames contradict.  Each is what the detector outputs for its
frame, with the ports and the sequence number in the frame if these are strings,
and is printed with the text of its frame. -/
theorem jdwp_stream (cap : Nat) (s : JdwpState) (h : Reachable cap filterProg s) :
    (s.delivered.map Prod.fst).Nodup ∧
    ((s.delivered.map Prod.fst).Pairwise fun i j => j ∉ s.past i) ∧
    (∀ i r, (i, r) ∈ s.delivered → ∃ inv : Invocation FrameCall JdwpData XdpAction,
      s.calls[i]? = some inv ∧ HasRecord inv.call.1.frame ∧
      (detectJdwpProtocol inv.call.1 true inv.call.2).output = some r ∧
      (StringFields inv.call.1.frame →
        r.srcPort.toNat = be16 inv.call.1.frame (tcpOffset inv.call.1.frame) ∧
        r.dstPort.toNat = be16 inv.call.1.frame (tcpOffset inv.call.1.frame + 2) ∧
        r.seq.toNat = be32 inv.call.1.frame (tcpOffset inv.call.1.frame + 4)) ∧
      handleEvent r = some [
        ⟨"Src: %ld Dest: %ld\n",
          [.int r.srcPort.toUInt32.toInt32, .int r.dstPort.toUInt32.toInt32]⟩,
        ⟨"Seq: %ld\n", [.uint r.seq]⟩,
        ⟨"Received %ld bytes: %s\n",
          [.ulong (UInt64.ofNat (recordString inv.call.1.frame).length),
            .str (recordString inv.call.1.frame)]⟩]) ∧
    (∀ (i : Nat) (action : XdpAction), (i, action) ∈ s.effects → action = .pass) ∧
    ∀ (i : Nat) (inv : Invocation FrameCall JdwpData XdpAction), s.calls[i]? = some inv →
      inv.prog = .ret → (i, XdpAction.pass) ∈ s.effects ∧
        ((∃ k r, Act.submit k r ∈ inv.log) ↔
          HasRecord inv.call.1.frame ∧ Act.reserve none ∉ inv.log) := by
  have hi := jdwp_invariant h
  refine ⟨hi.delivered_nodup, hi.delivered_order, ?_, ?_, ?_⟩
  · intro i r hmem
    obtain ⟨inv, k, hinv, hsub⟩ := hi.delivered_submitted hmem
    obtain ⟨hhas, rfl⟩ := filterProg_submit (hi.exec i inv hinv) hsub
    have hout := hhas.output inv.call.2
    refine ⟨inv, hinv, hhas, hout, fun hstrings => ?_, ?_⟩
    · exact (headerDecoded_iff_of_fits hhas.reaches hhas.data).mpr hstrings _ _ _ _ hout
    · exact handleEvent_eq (zero_not_mem_takeWhile _)
        (jdwpRecord_data inv.call.1 inv.call.2 hhas.data)
  · intro i action hmem
    obtain ⟨inv, hinv, hlog⟩ := (hi.effects i action).mp hmem
    exact filterProg_action (hi.exec i inv hinv) hlog
  · intro i inv hinv hret
    obtain ⟨hpass, hsubmits⟩ := filterProg_passes (hi.returned_exec hinv hret)
    exact ⟨(hi.effects i _).mpr ⟨inv, hinv, hpass⟩, hsubmits⟩

/-- The handshake of a debugger is received and its record is polled. -/
def handshakeRun : JdwpState :=
  State.run jdwpRbRecords filterProg
    [.enter (⟨paddedHandshake, fun _ => none⟩, ⟨Buf.zero _, Buf.zero _, Buf.zero _⟩),
      .resume 0 .zero, .resume 0 .zero, .resume 0 .zero, .poll]

theorem jdwp_stream_handshake :
    ∃ r, handshakeRun.delivered = [(0, r)] ∧
      handleEvent r = some [⟨"Src: %ld Dest: %ld\n", [.int 49920, .int 7936]⟩,
        ⟨"Seq: %ld\n", [.uint 0]⟩, ⟨"Received %ld bytes: %s\n", [.ulong 14, .str targetString]⟩] ∧
      (0, XdpAction.pass) ∈ handshakeRun.effects ∧
      ∀ (i : Nat) (action : XdpAction), (i, action) ∈ handshakeRun.effects → action = .pass := by
  obtain ⟨-, -, hprinted, hpass, hreturned⟩ :=
    jdwp_stream jdwpRbRecords handshakeRun (State.run_reachable _)
  have hone : handshakeRun.delivered = [(0, paddedRecord)] := by decide +kernel
  obtain ⟨inv, hinv, -, -, -, hevent⟩ := hprinted 0 paddedRecord (by simp [hone])
  have hframe : inv.call.1.frame = paddedHandshake := by
    have hcalls : handshakeRun.calls[0]?.map (fun inv => inv.call.1.frame) =
        some paddedHandshake := by decide +kernel
    rwa [hinv, Option.map_some, Option.some.injEq] at hcalls
  have hstring : recordString paddedHandshake = targetString := by decide +kernel
  have hsrc : paddedRecord.srcPort = 49920 := by decide +kernel
  have hdst : paddedRecord.dstPort = 7936 := by decide +kernel
  have hseq : paddedRecord.seq = 0 := by decide +kernel
  rw [hframe, hstring, hsrc, hdst, hseq] at hevent
  have hret : inv.prog = .ret := by
    have hcalls : handshakeRun.calls[0]?.map (fun inv => inv.prog.isRet) = some true := by
      decide +kernel
    rwa [hinv, Option.map_some, Option.some.injEq, Prog.isRet_iff] at hcalls
  exact ⟨paddedRecord, hone, hevent, (hreturned 0 inv hinv hret).1, hpass⟩

end EPtracer
