import EPtracer.Jdwp.Record
import EPtracer.Lib.Printf

/-!
# Printing a record

`handleEvent` gets the records from the ring buffer.  It takes the length of the
data with `strlen` and prints them with `%s`, and neither has a bound: both read
up to a NUL, wherever that is.  What it does with the time is left out, since it
prints none of it.

`record_self_contained` says that the data of a record always end in it.
-/

namespace EPtracer

open CText

/-- `strlen` of a string in a region, which is `none` where it reads past the
region. -/
def strlen (region : Bytes) : Option Nat := (cString region).map List.length

/-- `handle_event`: the calls it makes.  The ports are promoted to `int`.  It is
`none` where it reads past the field of the data. -/
def handleEvent (e : JdwpData) : Option (List PrintfCall) := do
  let length ← strlen e.data.bytes
  let data ← cString e.data.bytes
  return [
    ⟨"Src: %ld Dest: %ld\n", [.int e.srcPort.toUInt32.toInt32, .int e.dstPort.toUInt32.toInt32]⟩,
    ⟨"Seq: %ld\n", [.uint e.seq]⟩,
    ⟨"Received %ld bytes: %s\n", [.ulong (UInt64.ofNat length), .str data]⟩]

/-- The last call prints the string in the data, and no more. -/
theorem handleEvent_eq {e : JdwpData} {s rest : Bytes} (hnoNul : 0 ∉ s)
    (hdata : e.data.bytes = s ++ 0 :: rest) :
    handleEvent e = some [
      ⟨"Src: %ld Dest: %ld\n", [.int e.srcPort.toUInt32.toInt32, .int e.dstPort.toUInt32.toInt32]⟩,
      ⟨"Seq: %ld\n", [.uint e.seq]⟩,
      ⟨"Received %ld bytes: %s\n", [.ulong (UInt64.ofNat s.length), .str s]⟩] := by
  have hstring : cString e.data.bytes = some s := by
    rw [hdata, cString_append_zero, takeWhile_of_noNul hnoNul]
  rw [handleEvent, strlen, hstring]
  rfl

/-- **Records are strings.**  A record comes from a frame with all 256 bytes that
were to be copied.  Its data are the bytes up to the first NUL, or 255 of them,
and zeroes.  So what is printed of them is from the frame, and ends in the
record. -/
theorem record_self_contained (ctx : XdpMd) (room : Bool) (locals : JdwpLocals) (r : JdwpData)
    (h : (detectJdwpProtocol ctx room locals).output = some r) :
    ethhdrSize + ipIhl ctx.frame ethhdrSize * 4 + tcphdrSize + maxTcpData ≤ ctx.frame.length ∧
    ∃ s, s = ((ctx.frame.drop (ethhdrSize + ipIhl ctx.frame ethhdrSize * 4 + tcphdrSize)).take
        (maxTcpData - 1)).takeWhile (· ≠ 0) ∧
      s.length < maxTcpData ∧
      r.data.bytes = s ++ List.replicate (maxTcpData - s.length) 0 ∧
      handleEvent r = some [
        ⟨"Src: %ld Dest: %ld\n",
          [.int r.srcPort.toUInt32.toInt32, .int r.dstPort.toUInt32.toInt32]⟩,
        ⟨"Seq: %ld\n", [.uint r.seq]⟩,
        ⟨"Received %ld bytes: %s\n", [.ulong (UInt64.ofNat s.length), .str s]⟩] := by
  obtain ⟨-, hlen, -, rfl⟩ := (output_eq_some_iff ctx room locals r).mp h
  have hdata := jdwpRecord_data ctx locals hlen
  have hlt := length_recordString_lt ctx.frame
  refine ⟨hlen, recordString ctx.frame, rfl, hlt, ?_,
    handleEvent_eq (zero_not_mem_takeWhile _) hdata⟩
  have hzeros : maxTcpData - (recordString ctx.frame).length =
      (maxTcpData - ((recordString ctx.frame).length + 1)) + 1 := by
    omega
  rw [hdata, hzeros, List.replicate_succ]

/-- What the detector outputs for the handshake of a debugger. -/
def paddedRecord : JdwpData :=
  jdwpRecord ⟨paddedHandshake, fun _ => none⟩ ⟨Buf.zero _, Buf.zero _, Buf.zero _⟩

theorem record_self_contained_padded :
    ethhdrSize + ipIhl paddedHandshake ethhdrSize * 4 + tcphdrSize + maxTcpData ≤
      paddedHandshake.length ∧
    ∃ s, s = ((paddedHandshake.drop (ethhdrSize + ipIhl paddedHandshake ethhdrSize * 4 +
        tcphdrSize)).take (maxTcpData - 1)).takeWhile (· ≠ 0) ∧
      s.length < maxTcpData ∧
      paddedRecord.data.bytes = s ++ List.replicate (maxTcpData - s.length) 0 ∧
      handleEvent paddedRecord = some [
        ⟨"Src: %ld Dest: %ld\n", [.int paddedRecord.srcPort.toUInt32.toInt32,
          .int paddedRecord.dstPort.toUInt32.toInt32]⟩,
        ⟨"Seq: %ld\n", [.uint paddedRecord.seq]⟩,
        ⟨"Received %ld bytes: %s\n", [.ulong (UInt64.ofNat s.length), .str s]⟩] :=
  record_self_contained ⟨paddedHandshake, fun _ => none⟩ true
    ⟨Buf.zero _, Buf.zero _, Buf.zero _⟩ paddedRecord
    ((output_eq_some_iff _ _ _ _).mpr
      ⟨isJdwpHandshake_paddedHandshake.1.reachesTcp, dataEnd_paddedHandshake, rfl, rfl⟩)

end EPtracer
