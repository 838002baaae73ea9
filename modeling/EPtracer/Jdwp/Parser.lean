import EPtracer.Lib.Words

/-!
# The JDWP detector

`detectJdwpProtocol` looks at a frame for the program on the network interface.
It goes through the Ethernet, IP and TCP headers, reads three fields of the TCP
header and the start of the data with a string helper, and outputs a record.

The helper does not know where the frame ends.  So the memory is that of the
kernel from the start of the frame on (`XdpMd.mem`), where a byte past the end
of the frame can be readable or not.  What the helper does not write of a local
variable stays what it was, so the locals are an argument too.  The line for
the kernel's trace is left out, and so are the pointers left in `hdr`, which the
caller does not use.

`detectJdwpProtocol_drop_iff` says which frames the detector drops.
-/

namespace EPtracer

open CText

/-- `MAXTCPDATA`. -/
def maxTcpData : Nat := 256

/-- `sizeof(struct ethhdr)`. -/
def ethhdrSize : Nat := 14

/-- `sizeof(struct iphdr)`. -/
def iphdrSize : Nat := 20

/-- `sizeof(struct tcphdr)`. -/
def tcphdrSize : Nat := 20

/-- `struct jdwp_data_t`. -/
structure JdwpData where
  data : Buf maxTcpData
  srcPort : UInt16
  dstPort : UInt16
  seq : UInt32
deriving DecidableEq

/-- A record with nothing in it. -/
def JdwpData.zero : JdwpData := ⟨Buf.zero _, 0, 0, 0⟩

/-- The actions the programs return. -/
inductive XdpAction where
  | aborted | drop | pass
deriving DecidableEq

/-! ## Memory -/

/-- Kernel memory from some address on: the byte at each offset that can be
read. -/
abbrev KernelMem := Nat → Option UInt8

/-- `struct xdp_md`. -/
structure XdpMd where
  /-- The bytes from `data` up to `data_end`. -/
  frame : Bytes
  /-- The memory from `data_end` on. -/
  beyond : KernelMem

/-- The memory from `data` on. -/
def XdpMd.mem (ctx : XdpMd) : KernelMem := fun i =>
  if i < ctx.frame.length then ctx.frame[i]? else ctx.beyond (i - ctx.frame.length)

/-- What `bpf_probe_read_kernel_str` writes for a string: at most `size` bytes
with the terminator, or nothing where a byte cannot be read. -/
def copyString (mem : KernelMem) : Nat → Nat → Option Bytes
  | 0, _ => some []
  | size + 1, addr =>
      match mem addr with
      | none => none
      | some c =>
          if c = 0 ∨ size = 0 then some [0]
          else (copyString mem size (addr + 1)).map (c :: ·)

/-- The offsets of the bytes that `bpf_probe_read_kernel_str` reads for it.  The
byte the terminator takes the place of is one of them. -/
def examined (mem : KernelMem) : Nat → Nat → List Nat
  | 0, _ => []
  | size + 1, addr =>
      match mem addr with
      | none => [addr]
      | some c =>
          if c = 0 ∨ size = 0 then [addr] else addr :: examined mem size (addr + 1)

/-- `bpf_probe_read_kernel_str(dst, n, addr)` with `n` the size of `dst`: its
result and `dst` after it.  It leaves what is after the terminator.  A failed
read returns `-EFAULT` and clears `dst`. -/
def probeReadKernelStr {n : Nat} (mem : KernelMem) (dst : Buf n) (addr : Nat) : Int64 × Buf n :=
  match copyString mem n addr with
  | some b => (Int64.ofNat b.length, dst.write b)
  | none => (-14, Buf.zero n)

/-! ## The detector -/

/-- The `version` of an IP header at an offset of the frame. -/
def ipVersion (frame : Bytes) (iph : Nat) : Nat := (ptr frame iph >>> 4).toNat

/-- Its `ihl`. -/
def ipIhl (frame : Bytes) (iph : Nat) : Nat := (ptr frame iph &&& 0xf).toNat

/-- The local variables the detector does not initialise. -/
structure JdwpLocals where
  srcPort : Buf 2
  dstPort : Buf 2
  seq : Buf 4

/-- What a run of the detector does. -/
structure Detection where
  action : XdpAction
  /-- What it adds to the ring buffer. -/
  output : Option JdwpData
  /-- The offsets of the bytes it reads. -/
  reads : List Nat

/-- `detect_jdwp_protocol(ctx, hdr)`, with `room` for whether the ring buffer
takes a record. -/
def detectJdwpProtocol (ctx : XdpMd) (room : Bool) (locals : JdwpLocals) : Detection :=
  let dataEnd := ctx.frame.length
  let iph := ethhdrSize
  if dataEnd < iph + 1 then ⟨.drop, none, []⟩
  else if ipVersion ctx.frame iph ≠ 4 then ⟨.drop, none, [iph]⟩
  else if ipIhl ctx.frame iph * 4 < iphdrSize then ⟨.drop, none, [iph]⟩
  else
    let tcph := iph + ipIhl ctx.frame iph * 4
    if dataEnd < tcph + 1 then ⟨.drop, none, [iph]⟩
    else
      let srcPort := (probeReadKernelStr ctx.mem locals.srcPort tcph).2
      let dstPort := (probeReadKernelStr ctx.mem locals.dstPort (tcph + 2)).2
      let seq := (probeReadKernelStr ctx.mem locals.seq (tcph + 4)).2
      let jdwpData := { JdwpData.zero with
        srcPort := be16toh (load16 srcPort)
        dstPort := be16toh (load16 dstPort)
        seq := be32toh (load32 seq) }
      let reads := [iph] ++ examined ctx.mem 2 tcph ++ examined ctx.mem 2 (tcph + 2) ++
        examined ctx.mem 4 (tcph + 4)
      let tcpData := tcph + tcphdrSize
      if dataEnd < tcpData + maxTcpData then ⟨.pass, none, reads⟩
      else
        let (ret, data) := probeReadKernelStr ctx.mem jdwpData.data tcpData
        let reads := reads ++ examined ctx.mem maxTcpData tcpData
        if ret < 0 then ⟨.aborted, none, reads⟩
        else ⟨.pass, if room then some { jdwpData with data } else none, reads⟩

/-- The frame holds the byte of an IPv4 header with its length, and reaches
past that header. -/
structure ReachesTcp (frame : Bytes) : Prop where
  /-- The first byte of the IP header is there. -/
  ip : ethhdrSize < frame.length
  version : ipVersion frame ethhdrSize = 4
  ihl : iphdrSize ≤ ipIhl frame ethhdrSize * 4
  tcp : ethhdrSize + ipIhl frame ethhdrSize * 4 < frame.length

/-- The detector drops the frames in which it finds no TCP header. -/
theorem detectJdwpProtocol_drop_iff (ctx : XdpMd) (room : Bool) (locals : JdwpLocals) :
    (detectJdwpProtocol ctx room locals).action = .drop ↔ ¬ ReachesTcp ctx.frame := by
  unfold detectJdwpProtocol
  dsimp only
  split
  next hip => exact iff_of_true rfl fun h => by have := h.ip; omega
  next hip =>
    split
    next hversion => exact iff_of_true rfl fun h => hversion h.version
    next hversion =>
      split
      next hihl => exact iff_of_true rfl fun h => by have := h.ihl; omega
      next hihl =>
        split
        next htcp => exact iff_of_true rfl fun h => by have := h.tcp; omega
        next htcp =>
          have hreaches : ReachesTcp ctx.frame :=
            ⟨by omega, not_not.mp hversion, by omega, by omega⟩
          refine iff_of_false ?_ (not_not.mpr hreaches)
          split
          next => simp
          next => split <;> simp

end EPtracer
