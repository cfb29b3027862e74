import Zutils.Pcap.PacketCapture

/-!
# What is read of a frame

No length is checked before the headers are read, and the length of a TCP header is not checked at all. So a frame is
handled within its bounds if and only if it has the fields that are read, and what is delivered is behind a whole TCP header
only if that is as long as it must be (`inBounds_iff`).
-/

namespace Zutils

namespace CapturedFrame

variable {f : CapturedFrame} {hasThread : Bool}

/-- **A frame is handled within its bounds**: no read is behind what was captured, and what is delivered is in it, and not
before the end of a TCP header without options. -/
def InBounds (f : CapturedFrame) (hasThread : Bool) : Prop :=
  ∃ ds, f.packetCaptureCallBack hasThread = .ok ds ∧
    ∀ d ∈ ds, (d.data : ℤ) + d.dataLen ≤ f.caplen ∧ 14 + f.ipHeaderLen + 20 ≤ d.data

lemma delivery_end (h : f.Delivers) : (f.delivery.data : ℤ) + f.delivery.dataLen = f.caplen := by
  have hstart : f.payloadStart ≤ f.caplen := h.1.le
  show (f.payloadStart : ℤ) + (f.caplen - f.payloadStart : ℕ) = f.caplen
  omega

/-- The payload begins behind a TCP header if the length of that is the length of one. -/
lemma delivery_start : 14 + f.ipHeaderLen + 20 ≤ f.delivery.data ↔ 20 ≤ f.tcpHeaderLen := by
  show 14 + f.ipHeaderLen + 20 ≤ 14 + f.ipHeaderLen + f.tcpHeaderLen ↔ 20 ≤ f.tcpHeaderLen
  omega

/-- **A frame is handled within its bounds** if and only if it has the protocol of the IP header, and, if that is TCP, the
length of the TCP header, and, if something is delivered, the addresses and a TCP header that is long enough. -/
theorem inBounds_iff (f : CapturedFrame) (hasThread : Bool) : f.InBounds hasThread ↔
    24 ≤ f.caplen ∧ (f.isTcp → f.ipHeaderLen + 27 ≤ f.caplen ∧
      (f.Delivers → hasThread = true → 34 ≤ f.caplen ∧ 20 ≤ f.tcpHeaderLen)) := by
  rw [InBounds, packetCaptureCallBack_eq]
  by_cases h24 : f.caplen < 24
  · simp [h24]
  have h24' : 24 ≤ f.caplen := not_lt.1 h24
  by_cases htcp : f.isTcp
  · by_cases hoffset : f.caplen < f.ipHeaderLen + 27
    · simp [h24, htcp, hoffset]
    have hoffset' : f.ipHeaderLen + 27 ≤ f.caplen := not_lt.1 hoffset
    by_cases hdelivers : f.Delivers ∧ hasThread = true
    · by_cases h34 : f.caplen < 34
      · simp [h24, htcp, hoffset, hdelivers, h34]
      · -- The payload is what is left of the frame, so only where it begins is in question.
        have h34' : 34 ≤ f.caplen := not_lt.1 h34
        simp [h24, htcp, hoffset, hdelivers, h34, h24', hoffset', h34', delivery_end hdelivers.1, delivery_start]
    · have hquiet : f.Delivers → hasThread = true → 34 ≤ f.caplen ∧ 20 ≤ f.tcpHeaderLen :=
        fun hd ht => absurd ⟨hd, ht⟩ hdelivers
      simpa [h24, htcp, hoffset, hdelivers, h24', hoffset'] using hquiet
  · simp [h24, htcp, h24']

/-- A frame of the least size of a frame, with a segment to port 80 whose IP header says to have 36 bytes. -/
def cutFrameBytes : List UInt8 :=
  List.replicate 12 0 ++ [0x08, 0x00, 0x49] ++ List.replicate 8 0 ++ [6] ++ List.replicate 29 0 ++ [80] ++
    List.replicate 6 0

lemma cutFrameBytes_length : cutFrameBytes.length = 60 := by rfl

def cutFrame : CapturedFrame := ⟨cutFrameBytes, by rw [cutFrameBytes_length]; omega⟩

/-- The length of a TCP header is read behind the end of a frame. -/
theorem cutFrame_not_inBounds : ¬ ∀ (f : CapturedFrame) (hasThread : Bool), f.InBounds hasThread := by
  intro h
  obtain ⟨ds, hds, -⟩ := h cutFrame true
  have hfault : cutFrame.packetCaptureCallBack true = .error .outOfRange := by rfl
  rw [hfault] at hds
  cases hds

end CapturedFrame

end Zutils
