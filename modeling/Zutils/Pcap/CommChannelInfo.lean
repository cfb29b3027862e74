import Zutils.Lib.OrderedSet
import Mathlib.Data.UInt

/-!
# Channels as keys (`pcap_util/comm_channel_info.h`)

A channel is less than another if each of its fields is. So two channels are ordered only if all of their fields are, and in
the same way, and every other pair is equivalent to a container (`CommChannelInfo.orderedKeys_iff`).
-/

namespace Zutils

open Lib OrderedSet

structure CommChannelInfo where
  sourceIp : UInt32
  sourcePort : UInt16
  destIp : UInt32
  destPort : UInt16
  deriving DecidableEq, Repr

namespace CommChannelInfo

/-- `operator==`. -/
def equals (self that : CommChannelInfo) : Bool :=
  self.sourceIp = that.sourceIp ∧ self.sourcePort = that.sourcePort ∧ self.destIp = that.destIp ∧
    self.destPort = that.destPort

/-- `operator<`. -/
def less (self that : CommChannelInfo) : Bool :=
  if self.sourceIp < that.sourceIp ∧ self.sourcePort < that.sourcePort ∧ self.destIp < that.destIp ∧
      self.destPort < that.destPort then true
  else false

variable {a b : CommChannelInfo}

lemma equals_iff : equals a b = true ↔ a = b := by
  cases a
  cases b
  simp [equals]

lemma less_iff : less a b = true ↔
    a.sourceIp < b.sourceIp ∧ a.sourcePort < b.sourcePort ∧ a.destIp < b.destIp ∧ a.destPort < b.destPort := by
  simp [less]

/-- **Channels are keys** if and only if any two of them are ordered in all their fields, in the same way. -/
lemma orderedKeys_iff {S : Set CommChannelInfo} : OrderedKeys equals less S ↔ ∀ a ∈ S, ∀ b ∈ S, a ≠ b →
    (a.sourceIp < b.sourceIp ∧ a.sourcePort < b.sourcePort ∧ a.destIp < b.destIp ∧ a.destPort < b.destPort) ∨
    (b.sourceIp < a.sourceIp ∧ b.sourcePort < a.sourcePort ∧ b.destIp < a.destIp ∧ b.destPort < a.destPort) := by
  have hirrefl : ∀ a, less a a = false := by
    intro a
    simp [less]
  have htrans : ∀ a b c, less a b = true → less b c = true → less a c = true := by
    simp only [less_iff]
    rintro a b c ⟨hab₁, hab₂, hab₃, hab₄⟩ ⟨hbc₁, hbc₂, hbc₃, hbc₄⟩
    exact ⟨UInt32.lt_trans hab₁ hbc₁, UInt16.lt_trans hab₂ hbc₂, UInt32.lt_trans hab₃ hbc₃, UInt16.lt_trans hab₄ hbc₄⟩
  rw [OrderedSet.orderedKeys_iff (fun a b => equals_iff.1) hirrefl htrans]
  simp only [less_iff]
  exact and_iff_right fun a _ => equals_iff.2 rfl

end CommChannelInfo

end Zutils
