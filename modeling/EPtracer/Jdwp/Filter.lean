import EPtracer.Jdwp.Parser

/-!
# The JDWP filter

`filterJdwpPackets` is the program on the network interface.  Its comment says
that it drops the handshake of a JDWP debugger.  It calls the detector, ignores
what that returns, and passes the frame.

`IsJdwpHandshake` is a handshake as the protocols define it.  The filter is
right about the other frames only (`handshake_filtered_iff`).  What the detector
returns would be no better, since it never drops a handshake
(`detectJdwpProtocol_handshake`).
-/

namespace EPtracer

open CText

/-- `filter_jdwp_packets(ctx)`. -/
def filterJdwpPackets (ctx : XdpMd) (room : Bool) (locals : JdwpLocals) : Detection :=
  { detectJdwpProtocol ctx room locals with action := .pass }

/-! ## Handshakes -/

/-- The offset of the TCP header of an IPv4 frame. -/
def tcpOffset (frame : Bytes) : Nat := ethhdrSize + ipIhl frame ethhdrSize * 4

/-- The offset of the TCP payload. -/
def payloadOffset (frame : Bytes) : Nat :=
  tcpOffset frame + (ptr frame (tcpOffset frame + 12) >>> 4).toNat * 4

/-- The end of the IP datagram.  What is after it in the frame is padding. -/
def datagramEnd (frame : Bytes) : Nat := ethhdrSize + be16 frame 16

/-- A frame with a TCP segment in a single IPv4 datagram, whose headers have
their least lengths or more and fit. -/
structure IsTcpSegment (frame : Bytes) : Prop where
  /-- There is room for the headers without options. -/
  size : ethhdrSize + iphdrSize + tcphdrSize ≤ frame.length
  /-- The frame carries IP. -/
  etherType : be16 frame 12 = 0x800
  version : ipVersion frame ethhdrSize = 4
  /-- The IP header has its least length or more. -/
  ihl : iphdrSize ≤ ipIhl frame ethhdrSize * 4
  /-- The datagram is not a fragment. -/
  whole : be16 frame 20 % 0x4000 = 0
  protocol : ptr frame 23 = 6
  /-- The TCP header has its least length or more. -/
  doff : tcpOffset frame + tcphdrSize ≤ payloadOffset frame
  headers : payloadOffset frame ≤ datagramEnd frame
  datagram : datagramEnd frame ≤ frame.length

instance (frame : Bytes) : Decidable (IsTcpSegment frame) :=
  decidable_of_iff
    (ethhdrSize + iphdrSize + tcphdrSize ≤ frame.length ∧ be16 frame 12 = 0x800 ∧
      ipVersion frame ethhdrSize = 4 ∧ iphdrSize ≤ ipIhl frame ethhdrSize * 4 ∧
      be16 frame 20 % 0x4000 = 0 ∧ ptr frame 23 = 6 ∧
      tcpOffset frame + tcphdrSize ≤ payloadOffset frame ∧
      payloadOffset frame ≤ datagramEnd frame ∧ datagramEnd frame ≤ frame.length)
    ⟨fun ⟨h₁, h₂, h₃, h₄, h₅, h₆, h₇, h₈, h₉⟩ => ⟨h₁, h₂, h₃, h₄, h₅, h₆, h₇, h₈, h₉⟩,
      fun ⟨h₁, h₂, h₃, h₄, h₅, h₆, h₇, h₈, h₉⟩ => ⟨h₁, h₂, h₃, h₄, h₅, h₆, h₇, h₈, h₉⟩⟩

/-- What a segment carries. -/
def tcpPayload (frame : Bytes) : Bytes :=
  (frame.take (datagramEnd frame)).drop (payloadOffset frame)

/-- `target_string`. -/
def targetString : Bytes := ascii "JDWP-Handshake"

/-- A segment whose payload starts with the handshake. -/
def IsJdwpHandshake (frame : Bytes) : Prop :=
  IsTcpSegment frame ∧ targetString <+: tcpPayload frame

instance (frame : Bytes) : Decidable (IsJdwpHandshake frame) :=
  inferInstanceAs (Decidable (_ ∧ _))

theorem IsTcpSegment.reachesTcp {frame : Bytes} (h : IsTcpSegment frame) : ReachesTcp frame where
  ip := by
    have := h.size
    simp only [ethhdrSize, iphdrSize, tcphdrSize] at *
    omega
  version := h.version
  ihl := h.ihl
  tcp := by
    have hpayload := h.doff.trans (h.headers.trans h.datagram)
    simp only [tcpOffset, tcphdrSize] at hpayload
    omega

/-- The detector does not drop a handshake. -/
theorem detectJdwpProtocol_handshake {ctx : XdpMd} (h : IsJdwpHandshake ctx.frame) (room : Bool)
    (locals : JdwpLocals) : (detectJdwpProtocol ctx room locals).action ≠ .drop :=
  fun hdrop => (detectJdwpProtocol_drop_iff ctx room locals).mp hdrop h.1.reachesTcp

/-! ## What the filter does -/

/-- **The filter passes the handshake.**  What it does with a frame is what its
comment says exactly if the frame is not a handshake. -/
theorem handshake_filtered_iff (ctx : XdpMd) (room : Bool) (locals : JdwpLocals) :
    (filterJdwpPackets ctx room locals).action =
        (if IsJdwpHandshake ctx.frame then .drop else .pass) ↔
      ¬ IsJdwpHandshake ctx.frame := by
  by_cases h : IsJdwpHandshake ctx.frame
  · simp [filterJdwpPackets, h]
  · simp [filterJdwpPackets, h]

/-- The handshake of a debugger, from port 50000 to port 8000. -/
def handshakeFrame : Bytes :=
  List.replicate 12 0 ++ [8, 0] ++
    [69, 0, 0, 54, 0, 1, 64, 0, 64, 6, 185, 109, 192, 168, 0, 2, 192, 168, 0, 1] ++
    [195, 80, 31, 64, 0, 0, 0, 1, 0, 0, 0, 1, 80, 24, 4, 0, 223, 82, 0, 0] ++ targetString

theorem isJdwpHandshake_handshakeFrame : IsJdwpHandshake handshakeFrame := by
  decide +kernel

/-- A handshake is passed. -/
theorem handshake_passed :
    ¬ ∀ (ctx : XdpMd) (room : Bool) (locals : JdwpLocals),
      (filterJdwpPackets ctx room locals).action =
        if IsJdwpHandshake ctx.frame then .drop else .pass := by
  intro h
  have haction := h ⟨handshakeFrame, fun _ => none⟩ true ⟨Buf.zero _, Buf.zero _, Buf.zero _⟩
  rw [if_pos isJdwpHandshake_handshakeFrame] at haction
  cases haction

end EPtracer
