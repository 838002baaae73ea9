import EPtracer.Jdwp.Filter

/-!
# What the detector reads

The detector compares its pointers with the end of the frame before it follows
them.  The pointers to the headers are `void` pointers, and `iph + 1` and
`tcph + 1` are one byte further and not one header.  So a frame that ends in
the TCP header passes the check, and the string helper is sent to fields that
are not there.

`examined_inside_iff` says when one call of the helper stays in the frame.  It
stops at a NUL, so a frame may end in the last field if it has a NUL there
(`reads_inside_iff`).  The read of the data is checked with its length.
-/

namespace EPtracer

open CText

variable {ctx : XdpMd} {locals : JdwpLocals}

/-! ## Reads of the helper -/

theorem XdpMd.mem_of_lt {i : Nat} (h : i < ctx.frame.length) : ctx.mem i = some ctx.frame[i] := by
  rw [XdpMd.mem, if_pos h, List.getElem?_eq_getElem h]

/-- The helper stays in the frame if its bound does, or a NUL stops it. -/
theorem examined_inside_iff (ctx : XdpMd) (n addr : Nat) :
    (∀ i ∈ examined ctx.mem n addr, i < ctx.frame.length) ↔
      n = 0 ∨ addr + n ≤ ctx.frame.length ∨ 0 ∈ ctx.frame.drop addr := by
  induction n generalizing addr with
  | zero => simp [examined]
  | succ n ih =>
      rcases Nat.lt_or_ge addr ctx.frame.length with haddr | haddr
      · have hmem := XdpMd.mem_of_lt haddr
        have hdrop := List.drop_eq_getElem_cons haddr
        rw [hdrop]
        simp only [examined, hmem]
        by_cases hstop : ctx.frame[addr] = 0 ∨ n = 0
        · rw [if_pos hstop]
          refine iff_of_true (by simpa using haddr) ?_
          rcases hstop with hzero | rfl
          · simp [hzero]
          · exact .inr (.inl haddr)
        · obtain ⟨hbyte, hn⟩ := not_or.mp hstop
          rw [if_neg hstop, List.forall_mem_cons, ih (addr + 1)]
          simp only [haddr, hn, List.mem_cons, Ne.symm hbyte, false_or, true_and]
          have hsum : addr + 1 + n ≤ ctx.frame.length ↔ addr + (n + 1) ≤ ctx.frame.length := by
            omega
          simp [hsum]
      · have hfirst : addr ∈ examined ctx.mem (n + 1) addr := by
          simp only [examined]
          split
          · exact List.mem_singleton_self addr
          · split
            · exact List.mem_singleton_self addr
            · exact List.mem_cons_self
        have hnil : ctx.frame.drop addr = [] := List.drop_of_length_le haddr
        refine iff_of_false (fun h => ?_) ?_
        · exact Nat.not_lt.mpr haddr (h addr hfirst)
        · rw [hnil]
          simp only [List.not_mem_nil, or_false]
          omega

/-- The string at an offset of a frame, cut at its NUL or at `n` bytes. -/
def frameString (frame : Bytes) (addr n : Nat) : Bytes :=
  ((frame.drop addr).take n).takeWhile (· ≠ 0)

theorem length_frameString_le (frame : Bytes) (addr n : Nat) :
    (frameString frame addr n).length ≤ n := by
  have hpre := (List.takeWhile_prefix (fun c : UInt8 => decide (c ≠ 0))
    (l := (frame.drop addr).take n)).length_le
  exact hpre.trans (List.length_take_le n _)

theorem copyString_frame (ctx : XdpMd) (n addr : Nat) (h : addr + n < ctx.frame.length) :
    copyString ctx.mem (n + 1) addr = some (frameString ctx.frame addr n ++ [0]) := by
  induction n generalizing addr with
  | zero =>
      have hmem := XdpMd.mem_of_lt (show addr < ctx.frame.length by omega)
      simp [copyString, hmem, frameString]
  | succ n ih =>
      have haddr : addr < ctx.frame.length := by omega
      have hmem := XdpMd.mem_of_lt haddr
      have hrest := ih (addr + 1) (by omega)
      rw [frameString, List.drop_eq_getElem_cons haddr, List.take_succ_cons, copyString]
      simp only [hmem, hrest]
      by_cases hbyte : ctx.frame[addr] = 0
      · simp [hbyte]
      · simp [hbyte, frameString]

/-- In the frame the helper copies up to a NUL, or up to its bound. -/
theorem probeReadKernelStr_frame (ctx : XdpMd) {n : Nat} (dst : Buf n) {addr : Nat} (hn : 0 < n)
    (h : addr + n ≤ ctx.frame.length) :
    probeReadKernelStr ctx.mem dst addr =
      (Int64.ofNat (frameString ctx.frame addr (n - 1) ++ [0]).length,
        dst.write (frameString ctx.frame addr (n - 1) ++ [0])) := by
  obtain ⟨k, rfl⟩ := Nat.exists_eq_succ_of_ne_zero (Nat.ne_of_gt hn)
  rw [probeReadKernelStr, copyString_frame ctx k addr h]
  rfl

/-- The end of the data the detector takes. -/
def dataEnd (frame : Bytes) : Nat := tcpOffset frame + tcphdrSize + maxTcpData

/-- The call for the data succeeds where the detector makes it. -/
theorem probeReadKernelStr_data (dst : Buf maxTcpData) (h : dataEnd ctx.frame ≤ ctx.frame.length) :
    ¬ (probeReadKernelStr ctx.mem dst (tcpOffset ctx.frame + tcphdrSize)).1 < 0 := by
  have hlen := length_frameString_le ctx.frame (tcpOffset ctx.frame + tcphdrSize) (maxTcpData - 1)
  have hret : (frameString ctx.frame (tcpOffset ctx.frame + tcphdrSize) (maxTcpData - 1) ++
      [0]).length < 2 ^ 63 := by
    simp only [List.length_append, List.length_singleton, maxTcpData] at hlen ⊢
    omega
  rw [probeReadKernelStr_frame ctx dst (by decide) h, Int64.lt_iff_toInt_lt,
    Int64.toInt_ofNat_of_lt hret]
  exact Int.not_lt.mpr (Int.natCast_nonneg _)

/-! ## What the detector does -/

/-- The reads in the headers. -/
def headerReads (ctx : XdpMd) : List Nat :=
  let tcph := tcpOffset ctx.frame
  [ethhdrSize] ++ examined ctx.mem 2 tcph ++ examined ctx.mem 2 (tcph + 2) ++
    examined ctx.mem 4 (tcph + 4)

/-- The record the detector makes of a frame. -/
def jdwpRecord (ctx : XdpMd) (locals : JdwpLocals) : JdwpData :=
  let tcph := tcpOffset ctx.frame
  { data := (probeReadKernelStr ctx.mem (Buf.zero _) (tcph + tcphdrSize)).2
    srcPort := be16toh (load16 (probeReadKernelStr ctx.mem locals.srcPort tcph).2)
    dstPort := be16toh (load16 (probeReadKernelStr ctx.mem locals.dstPort (tcph + 2)).2)
    seq := be32toh (load32 (probeReadKernelStr ctx.mem locals.seq (tcph + 4)).2) }

/-- A run of the detector finds no TCP header, or too little after it, or it
outputs its record. -/
theorem detectJdwpProtocol_cases (ctx : XdpMd) (room : Bool) (locals : JdwpLocals) :
    (¬ ReachesTcp ctx.frame ∧ (detectJdwpProtocol ctx room locals).output = none ∧
      ∀ i ∈ (detectJdwpProtocol ctx room locals).reads, i < ctx.frame.length) ∨
    (ReachesTcp ctx.frame ∧ ctx.frame.length < dataEnd ctx.frame ∧
      detectJdwpProtocol ctx room locals = ⟨.pass, none, headerReads ctx⟩) ∨
    (ReachesTcp ctx.frame ∧ dataEnd ctx.frame ≤ ctx.frame.length ∧
      detectJdwpProtocol ctx room locals =
        ⟨.pass, if room then some (jdwpRecord ctx locals) else none,
          headerReads ctx ++ examined ctx.mem maxTcpData (tcpOffset ctx.frame + tcphdrSize)⟩) := by
  by_cases hreach : ReachesTcp ctx.frame
  · right
    have hip := hreach.ip
    have hihl := hreach.ihl
    have htcp := hreach.tcp
    have hprog : detectJdwpProtocol ctx room locals =
        if ctx.frame.length < dataEnd ctx.frame then ⟨.pass, none, headerReads ctx⟩
        else if (probeReadKernelStr ctx.mem (Buf.zero maxTcpData)
            (tcpOffset ctx.frame + tcphdrSize)).1 < 0 then
          ⟨.aborted, none, headerReads ctx ++
            examined ctx.mem maxTcpData (tcpOffset ctx.frame + tcphdrSize)⟩
        else ⟨.pass, if room then some (jdwpRecord ctx locals) else none, headerReads ctx ++
          examined ctx.mem maxTcpData (tcpOffset ctx.frame + tcphdrSize)⟩ := by
      unfold detectJdwpProtocol
      dsimp only
      rw [if_neg (Nat.not_lt.mpr hip), if_neg (not_not_intro hreach.version),
        if_neg (Nat.not_lt.mpr hihl), if_neg (Nat.not_lt.mpr htcp)]
      rfl
    rcases Nat.lt_or_ge ctx.frame.length (dataEnd ctx.frame) with hlt | hge
    · exact .inl ⟨hreach, hlt, by rw [hprog, if_pos hlt]⟩
    · refine .inr ⟨hreach, hge, ?_⟩
      rw [hprog, if_neg (Nat.not_lt.mpr hge), if_neg (probeReadKernelStr_data _ hge)]
  · left
    refine ⟨hreach, ?_⟩
    unfold detectJdwpProtocol
    dsimp only
    split
    next => simp
    next hip =>
      have hhead : ∀ i ∈ [ethhdrSize], i < ctx.frame.length := by
        intro i hi
        rw [List.mem_singleton.mp hi]
        exact Nat.not_lt.mp hip
      split
      next => exact ⟨rfl, hhead⟩
      next hversion =>
        split
        next => exact ⟨rfl, hhead⟩
        next hihl =>
          split
          next => exact ⟨rfl, hhead⟩
          next htcp =>
            exact absurd ⟨Nat.not_lt.mp hip, not_not.mp hversion, Nat.not_lt.mp hihl,
              Nat.not_lt.mp htcp⟩ hreach

/-! ## Which reads are in the frame -/

theorem headerReads_inside_iff (h : ReachesTcp ctx.frame) :
    (∀ i ∈ headerReads ctx, i < ctx.frame.length) ↔
      tcpOffset ctx.frame + 8 ≤ ctx.frame.length ∨
        0 ∈ ctx.frame.drop (tcpOffset ctx.frame + 4) := by
  have hip : ∀ i ∈ [ethhdrSize], i < ctx.frame.length := by simpa using h.ip
  simp only [headerReads, List.forall_mem_append, examined_inside_iff]
  constructor
  · rintro ⟨-, hseq⟩
    exact hseq.resolve_left (by decide)
  · intro hseq
    have hlen : tcpOffset ctx.frame + 4 ≤ ctx.frame.length := by
      rcases hseq with hlen | hzero
      · omega
      · by_contra hlt
        rw [List.drop_of_length_le (by omega)] at hzero
        cases hzero
    exact ⟨⟨⟨hip, .inr (.inl (by omega))⟩, .inr (.inl (by omega))⟩, .inr hseq⟩

/-- **The detector and the end of the frame.**  Its reads are in the frame
exactly if it finds no TCP header, or the frame holds the three fields, or a NUL
ends the last field where the frame has not ended yet. -/
theorem reads_inside_iff (ctx : XdpMd) (room : Bool) (locals : JdwpLocals) :
    (∀ i ∈ (detectJdwpProtocol ctx room locals).reads, i < ctx.frame.length) ↔
      ¬ ReachesTcp ctx.frame ∨ tcpOffset ctx.frame + 8 ≤ ctx.frame.length ∨
        0 ∈ ctx.frame.drop (tcpOffset ctx.frame + 4) := by
  rcases detectJdwpProtocol_cases ctx room locals with
    ⟨hnot, -, hreads⟩ | ⟨hreach, -, hrun⟩ | ⟨hreach, hlen, hrun⟩
  · exact iff_of_true hreads (.inl hnot)
  · rw [hrun, headerReads_inside_iff hreach]
    simp [hreach]
  · rw [hrun]
    simp only [List.forall_mem_append, headerReads_inside_iff hreach, examined_inside_iff]
    have hdata : tcpOffset ctx.frame + tcphdrSize + maxTcpData ≤ ctx.frame.length := hlen
    simp [hreach, hdata]

/-- An IPv4 header and one byte. -/
def truncatedFrame : Bytes := List.replicate 14 0 ++ 69 :: List.replicate 20 0

/-- The fields of the TCP header are read from after the end of the frame. -/
theorem reads_outside :
    ¬ ∀ (ctx : XdpMd) (room : Bool) (locals : JdwpLocals),
      ∀ i ∈ (detectJdwpProtocol ctx room locals).reads, i < ctx.frame.length := by
  intro h
  have hread : 36 < truncatedFrame.length :=
    h ⟨truncatedFrame, fun _ => none⟩ true ⟨Buf.zero _, Buf.zero _, Buf.zero _⟩ 36
      (by decide +kernel)
  exact absurd hread (by decide)

end EPtracer
