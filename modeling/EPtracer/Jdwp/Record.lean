import EPtracer.Jdwp.Bounds

/-!
# What a record says

The ports and the sequence number are numbers in network order, and the
detector reads them with the string helper.  The helper stops at the first zero
byte of a field, and puts a zero in the place of its last one.
`field_copied_iff` says which fields survive that.

The data of a record are the bytes after a TCP header without options, and only
a frame with 256 such bytes makes a record.  A handshake has fourteen
(`handshake_recorded_iff`).
-/

namespace EPtracer

open CText

variable {ctx : XdpMd} {locals : JdwpLocals}

/-! ## Fields -/

/-- A string with its NUL fills the field. -/
def IsCString (field : Bytes) : Prop := ∃ s, 0 ∉ s ∧ field = s ++ [0]

theorem takeWhile_length_lt {f : Bytes} (h : 0 ∈ f) : (f.takeWhile (· ≠ 0)).length < f.length := by
  have hstring : cString f = some (f.takeWhile (· ≠ 0)) := if_pos h
  exact length_cString_lt hstring

/-- A copy that stops at a zero byte gives the field in every variable only if
its last byte is its only zero. -/
theorem write_string_iff {k : Nat} {f : Bytes} (hf : f.length = k) (z : UInt8) :
    (∀ dst : Buf (k + 1), (dst.write (f.takeWhile (· ≠ 0) ++ [0])).bytes = f ++ [z]) ↔
      0 ∉ f ∧ z = 0 := by
  have hfits : (f.takeWhile (· ≠ 0) ++ [0]).length ≤ k + 1 := by
    have hpre := (List.takeWhile_prefix (fun c : UInt8 => decide (c ≠ 0)) (l := f)).length_le
    simp only [List.length_append, List.length_singleton]
    omega
  constructor
  · intro h
    have hnoNul : 0 ∉ f := by
      intro hzero
      -- a variable that differs from the last byte keeps its own
      have hkept := h ⟨List.replicate (k + 1) (z + 1), by simp⟩
      rw [Buf.bytes_write _ hfits, List.drop_replicate] at hkept
      have hlt := takeWhile_length_lt hzero
      obtain ⟨m, hm⟩ : ∃ m, k + 1 - (f.takeWhile (· ≠ 0) ++ [0]).length = m + 1 := by
        simp only [List.length_append, List.length_singleton]
        exact ⟨k - (f.takeWhile (· ≠ 0)).length - 1, by omega⟩
      rw [hm, List.replicate_succ', ← List.append_assoc] at hkept
      have hlast := (List.append_inj' hkept rfl).2
      simp at hlast
    refine ⟨hnoNul, ?_⟩
    have hzero := h (Buf.zero (k + 1))
    rw [takeWhile_of_noNul hnoNul, Buf.write_full _ (by simp [hf]),
      List.append_cancel_left_eq] at hzero
    exact (List.singleton_inj.mp hzero).symm
  · rintro ⟨hnoNul, rfl⟩ dst
    rw [takeWhile_of_noNul hnoNul, Buf.write_full _ (by simp [hf])]

/-- The helper copies a field to every variable only if a string fills it. -/
theorem field_copied_iff (ctx : XdpMd) {n addr : Nat} (hn : 0 < n)
    (h : addr + n ≤ ctx.frame.length) :
    (∀ dst : Buf n, (probeReadKernelStr ctx.mem dst addr).2.bytes =
        (ctx.frame.drop addr).take n) ↔
      IsCString ((ctx.frame.drop addr).take n) := by
  obtain ⟨k, rfl⟩ := Nat.exists_eq_succ_of_ne_zero (Nat.ne_of_gt hn)
  have hk : addr + k < ctx.frame.length := h
  have hlen : ((ctx.frame.drop addr).take k).length = k := by
    simp only [List.length_take, List.length_drop]
    omega
  have hsplit : (ctx.frame.drop addr).take (k + 1) =
      (ctx.frame.drop addr).take k ++ [ctx.frame[addr + k]] := by
    rw [List.take_add_one, List.getElem?_drop, List.getElem?_eq_getElem hk]
    rfl
  have hcopy := write_string_iff hlen ctx.frame[addr + k]
  rw [← hsplit] at hcopy
  have hcall : ∀ dst : Buf (k + 1), (probeReadKernelStr ctx.mem dst addr).2 =
      dst.write (((ctx.frame.drop addr).take k).takeWhile (· ≠ 0) ++ [0]) := by
    intro dst
    rw [probeReadKernelStr_frame ctx dst hn h]
    rfl
  simp only [Nat.succ_eq_add_one, hcall, hcopy]
  constructor
  · rintro ⟨hnoNul, hzero⟩
    exact ⟨_, hnoNul, by rw [hsplit, hzero]⟩
  · rintro ⟨s, hs, hfield⟩
    rw [hsplit] at hfield
    obtain ⟨hpre, hlast⟩ := List.append_inj' hfield rfl
    exact ⟨hpre ▸ hs, List.singleton_inj.mp hlast⟩

/-! ## The header of a record -/

theorem output_eq_some_iff (ctx : XdpMd) (room : Bool) (locals : JdwpLocals) (r : JdwpData) :
    (detectJdwpProtocol ctx room locals).output = some r ↔
      ReachesTcp ctx.frame ∧ dataEnd ctx.frame ≤ ctx.frame.length ∧ room = true ∧
        jdwpRecord ctx locals = r := by
  rcases detectJdwpProtocol_cases ctx room locals with
    ⟨hnot, hout, -⟩ | ⟨-, hlt, hrun⟩ | ⟨hreach, hlen, hrun⟩
  · simp [hout, hnot]
  · simp [hrun, Nat.not_le.mpr hlt]
  · cases room <;> simp [hrun, hreach, hlen]

/-- The fields of a record are the numbers in the TCP header, whatever the
memory after the frame and the variables hold. -/
def HeaderDecoded (frame : Bytes) : Prop :=
  ∀ (beyond : KernelMem) (room : Bool) (locals : JdwpLocals) (r : JdwpData),
    (detectJdwpProtocol ⟨frame, beyond⟩ room locals).output = some r →
      r.srcPort.toNat = be16 frame (tcpOffset frame) ∧
      r.dstPort.toNat = be16 frame (tcpOffset frame + 2) ∧
      r.seq.toNat = be32 frame (tcpOffset frame + 4)

/-- Strings fill the three fields the detector reads. -/
structure StringFields (frame : Bytes) : Prop where
  srcPort : IsCString ((frame.drop (tcpOffset frame)).take 2)
  dstPort : IsCString ((frame.drop (tcpOffset frame + 2)).take 2)
  seq : IsCString ((frame.drop (tcpOffset frame + 4)).take 4)

theorem length_field {frame : Bytes} {i n : Nat} (h : i + n ≤ frame.length) :
    ((frame.drop i).take n).length = n := by
  simp only [List.length_take, List.length_drop]
  omega

theorem copied_be16_iff (ctx : XdpMd) (addr : Nat) (h : addr + 2 ≤ ctx.frame.length) :
    (∀ dst : Buf 2, (be16toh (load16 (probeReadKernelStr ctx.mem dst addr).2)).toNat =
        be16 ctx.frame addr) ↔ IsCString ((ctx.frame.drop addr).take 2) := by
  rw [← field_copied_iff ctx (by decide) h]
  refine forall_congr' fun dst => ?_
  rw [toNat_be16toh_load16, ← be16_take_drop ctx.frame addr]
  exact ⟨be16_injective (Buf.size _) (length_field h), fun hbytes => by rw [hbytes]⟩

theorem copied_be32_iff (ctx : XdpMd) (addr : Nat) (h : addr + 4 ≤ ctx.frame.length) :
    (∀ dst : Buf 4, (be32toh (load32 (probeReadKernelStr ctx.mem dst addr).2)).toNat =
        be32 ctx.frame addr) ↔ IsCString ((ctx.frame.drop addr).take 4) := by
  rw [← field_copied_iff ctx (by decide) h]
  refine forall_congr' fun dst => ?_
  rw [toNat_be32toh_load32, ← be32_take_drop ctx.frame addr]
  exact ⟨be32_injective (Buf.size _) (length_field h), fun hbytes => by rw [hbytes]⟩

theorem headerDecoded_iff_of_fits {frame : Bytes} (hreach : ReachesTcp frame)
    (hlen : dataEnd frame ≤ frame.length) : HeaderDecoded frame ↔ StringFields frame := by
  have hfields : tcpOffset frame + 8 ≤ frame.length := by
    simp only [dataEnd, tcphdrSize, maxTcpData] at hlen
    omega
  have hsrc (ctx : XdpMd) (h : ctx.frame = frame) :=
    copied_be16_iff ctx (tcpOffset frame) (by rw [h]; omega)
  have hdst (ctx : XdpMd) (h : ctx.frame = frame) :=
    copied_be16_iff ctx (tcpOffset frame + 2) (by rw [h]; omega)
  have hseq (ctx : XdpMd) (h : ctx.frame = frame) :=
    copied_be32_iff ctx (tcpOffset frame + 4) (by rw [h]; omega)
  constructor
  · intro hdec
    let ctx : XdpMd := ⟨frame, fun _ => none⟩
    have hrun (locals : JdwpLocals) := hdec ctx.beyond true locals (jdwpRecord ctx locals)
      ((output_eq_some_iff ctx true locals _).mpr ⟨hreach, hlen, rfl, rfl⟩)
    exact {
      srcPort := (hsrc ctx rfl).mp fun dst => (hrun ⟨dst, Buf.zero _, Buf.zero _⟩).1
      dstPort := (hdst ctx rfl).mp fun dst => (hrun ⟨Buf.zero _, dst, Buf.zero _⟩).2.1
      seq := (hseq ctx rfl).mp fun dst => (hrun ⟨Buf.zero _, Buf.zero _, dst⟩).2.2 }
  · intro hstr beyond room locals r hout
    obtain ⟨-, -, -, rfl⟩ := (output_eq_some_iff ⟨frame, beyond⟩ room locals r).mp hout
    exact ⟨(hsrc ⟨frame, beyond⟩ rfl).mpr hstr.srcPort locals.srcPort,
      (hdst ⟨frame, beyond⟩ rfl).mpr hstr.dstPort locals.dstPort,
      (hseq ⟨frame, beyond⟩ rfl).mpr hstr.seq locals.seq⟩

/-- **Numbers read as strings.**  The fields of the records of a frame are right
exactly if each is a string with its NUL, that is if its last byte is its only
zero. -/
theorem header_decoded_iff (ctx : XdpMd) (room : Bool) (locals : JdwpLocals) (r : JdwpData)
    (h : (detectJdwpProtocol ctx room locals).output = some r) :
    HeaderDecoded ctx.frame ↔ StringFields ctx.frame := by
  obtain ⟨hreach, hlen, -, -⟩ := (output_eq_some_iff ctx room locals r).mp h
  exact headerDecoded_iff_of_fits hreach hlen

/-- The handshake of a debugger, in a frame with padding. -/
def paddedHandshake : Bytes := handshakeFrame ++ List.replicate 256 0

theorem isJdwpHandshake_paddedHandshake : IsJdwpHandshake paddedHandshake := by
  decide +kernel

theorem dataEnd_paddedHandshake : dataEnd paddedHandshake ≤ paddedHandshake.length := by
  decide +kernel

theorem header_decoded_iff_padded : HeaderDecoded paddedHandshake ↔ StringFields paddedHandshake :=
  header_decoded_iff ⟨paddedHandshake, fun _ => none⟩ true ⟨Buf.zero _, Buf.zero _, Buf.zero _⟩ _
    ((output_eq_some_iff _ _ _ _).mpr
      ⟨isJdwpHandshake_paddedHandshake.1.reachesTcp, dataEnd_paddedHandshake, rfl, rfl⟩)

/-- Port 50000 is recorded as another one. -/
theorem port_not_decoded :
    ¬ ∀ (ctx : XdpMd) (room : Bool) (locals : JdwpLocals) (r : JdwpData),
      (detectJdwpProtocol ctx room locals).output = some r → HeaderDecoded ctx.frame := by
  intro h
  have hreach := isJdwpHandshake_paddedHandshake.1.reachesTcp
  have hlen := dataEnd_paddedHandshake
  have hdec := h ⟨paddedHandshake, fun _ => none⟩ true ⟨Buf.zero _, Buf.zero _, Buf.zero _⟩ _
    ((output_eq_some_iff _ _ _ _).mpr ⟨hreach, hlen, rfl, rfl⟩)
  obtain ⟨s, -, hport⟩ := ((headerDecoded_iff_of_fits hreach hlen).mp hdec).srcPort
  have hfield : (paddedHandshake.drop (tcpOffset paddedHandshake)).take 2 = [195] ++ [80] := by
    decide +kernel
  rw [hfield] at hport
  have hlast := (List.append_inj' hport rfl).2
  exact absurd hlast (by decide)

/-! ## The data of a record -/

/-- The bytes after a TCP header without options. -/
def fixedPayload (frame : Bytes) : Bytes := frame.drop (tcpOffset frame + tcphdrSize)

/-- The string the helper copies from there. -/
def recordString (frame : Bytes) : Bytes :=
  ((fixedPayload frame).take (maxTcpData - 1)).takeWhile (· ≠ 0)

theorem length_recordString_lt (frame : Bytes) : (recordString frame).length < maxTcpData := by
  have hlen := length_frameString_le frame (tcpOffset frame + tcphdrSize) (maxTcpData - 1)
  exact Nat.lt_of_le_of_lt hlen (by decide)

/-- The record was zero, and the helper leaves what is after its terminator. -/
theorem jdwpRecord_data (ctx : XdpMd) (locals : JdwpLocals)
    (h : dataEnd ctx.frame ≤ ctx.frame.length) :
    (jdwpRecord ctx locals).data.bytes = recordString ctx.frame ++
      0 :: List.replicate (maxTcpData - ((recordString ctx.frame).length + 1)) 0 := by
  have hfits : (recordString ctx.frame ++ [0]).length ≤ maxTcpData := by
    rw [List.length_append]
    exact length_recordString_lt ctx.frame
  rw [jdwpRecord]
  dsimp only
  rw [probeReadKernelStr_frame ctx (Buf.zero maxTcpData) (by decide) h]
  dsimp only
  change ((Buf.zero maxTcpData).write (recordString ctx.frame ++ [0])).bytes = _
  rw [Buf.bytes_write _ hfits, List.append_assoc, List.length_append, Buf.zero, List.drop_replicate]
  rfl

theorem prefix_takeWhile {p l : Bytes} (h : p <+: l) (hp : 0 ∉ p) : p <+: l.takeWhile (· ≠ 0) := by
  obtain ⟨t, rfl⟩ := h
  have hall : ∀ c ∈ p, decide (c ≠ 0) = true := by
    intro c hc
    simpa using fun h0 : c = 0 => hp (h0 ▸ hc)
  rw [List.takeWhile_append_of_pos hall]
  exact List.prefix_append p _

/-- The data start with a short string exactly if the bytes they were taken from
do. -/
theorem data_starts_iff {p b rest : Bytes} {n : Nat} (hp : 0 ∉ p) (hlen : p.length ≤ n) :
    p <+: (b.take n).takeWhile (· ≠ 0) ++ 0 :: rest ↔ p <+: b := by
  constructor
  · intro h
    have hwords := prefix_takeWhile h hp
    have hcut := cString_append_zero ((b.take n).takeWhile (· ≠ 0)) rest
    rw [cString, if_pos (by simp), takeWhile_of_noNul (zero_not_mem_takeWhile _)] at hcut
    rw [Option.some.inj hcut] at hwords
    exact (hwords.trans (List.takeWhile_prefix _)).trans (List.take_prefix n b)
  · intro h
    have htake : p <+: b.take n := List.prefix_take_iff.mpr ⟨h, hlen⟩
    exact (prefix_takeWhile htake hp).trans (List.prefix_append _ _)

/-- With room in the buffer the detector outputs a record whose data start with
the handshake. -/
def HandshakeRecorded (ctx : XdpMd) (locals : JdwpLocals) : Prop :=
  ∃ r, (detectJdwpProtocol ctx true locals).output = some r ∧ targetString <+: r.data.bytes

/-- A TCP header without options, or with options that are a handshake. -/
def HandshakeInPlace (frame : Bytes) : Prop :=
  payloadOffset frame = tcpOffset frame + tcphdrSize ∨ targetString <+: fixedPayload frame

theorem handshakeInPlace_iff {frame : Bytes} (h : IsJdwpHandshake frame) :
    HandshakeInPlace frame ↔ targetString <+: fixedPayload frame := by
  refine ⟨fun hplace => hplace.elim (fun hoff => ?_) id, .inr⟩
  have hpayload := h.2
  rw [tcpPayload, hoff, List.drop_take] at hpayload
  exact hpayload.trans (List.take_prefix _ _)

/-- **Recording a handshake.**  A handshake is recorded exactly if 256 bytes
follow a TCP header without options, and it is the first thing in them. -/
theorem handshake_recorded_iff (ctx : XdpMd) (locals : JdwpLocals)
    (h : IsJdwpHandshake ctx.frame) :
    HandshakeRecorded ctx locals ↔
      tcpOffset ctx.frame + tcphdrSize + maxTcpData ≤ ctx.frame.length ∧
        HandshakeInPlace ctx.frame := by
  rw [handshakeInPlace_iff h]
  have hdata (hlen : dataEnd ctx.frame ≤ ctx.frame.length) :
      targetString <+: (jdwpRecord ctx locals).data.bytes ↔
        targetString <+: fixedPayload ctx.frame := by
    rw [jdwpRecord_data ctx locals hlen]
    exact data_starts_iff (by decide +kernel) (by decide +kernel)
  constructor
  · rintro ⟨r, hout, hstart⟩
    obtain ⟨-, hlen, -, rfl⟩ := (output_eq_some_iff ctx true locals r).mp hout
    exact ⟨hlen, (hdata hlen).mp hstart⟩
  · rintro ⟨hlen, hstart⟩
    exact ⟨jdwpRecord ctx locals,
      (output_eq_some_iff ctx true locals _).mpr ⟨h.1.reachesTcp, hlen, rfl, rfl⟩,
      (hdata hlen).mpr hstart⟩

theorem handshake_recorded_iff_padded :
    HandshakeRecorded ⟨paddedHandshake, fun _ => none⟩ ⟨Buf.zero _, Buf.zero _, Buf.zero _⟩ ↔
      tcpOffset paddedHandshake + tcphdrSize + maxTcpData ≤ paddedHandshake.length ∧
        HandshakeInPlace paddedHandshake :=
  handshake_recorded_iff ⟨paddedHandshake, fun _ => none⟩ ⟨Buf.zero _, Buf.zero _, Buf.zero _⟩
    isJdwpHandshake_paddedHandshake

/-- The handshake as a debugger sends it is not recorded. -/
theorem handshake_not_recorded :
    ¬ ∀ (ctx : XdpMd) (locals : JdwpLocals), IsJdwpHandshake ctx.frame →
      HandshakeRecorded ctx locals := by
  intro h
  obtain ⟨r, hout, -⟩ := h ⟨handshakeFrame, fun _ => none⟩
    ⟨Buf.zero _, Buf.zero _, Buf.zero _⟩ isJdwpHandshake_handshakeFrame
  have hlen := ((output_eq_some_iff _ _ _ r).mp hout).2.1
  exact absurd hlen (by decide +kernel)

end EPtracer
