import Zutils.Lib.OrderedSet
import Zutils.Pcap.CommChannelInfo

/-!
# Addresses as keys (`base2/config_file_util.h`)

Addresses are ordered by their names and then by their ports, and a name is compared by its bytes. But `operator==` of
`IpAddrInfo` is false for an address without a name that has a port, and that of `IpAddrInfo2` for one that has neither,
even if it is compared with itself.
-/

namespace Zutils

open Lib OrderedSet

structure IpAddrInfo where
  addr : List UInt8
  port : UInt16
  deriving DecidableEq, Repr

structure IpAddrInfo2 where
  addr : List UInt8
  port : List UInt8
  deriving DecidableEq, Repr

/-- `operator<` of both: first by the name, then by the port. -/
def addressLess {P : Type} [LT P] [DecidableLT P] (addr otherAddr : List UInt8) (port otherPort : P) : Bool :=
  if addr < otherAddr then true
  else if addr = otherAddr then port < otherPort
  else false

namespace IpAddrInfo

/-- `operator==`. -/
def equals (self other : IpAddrInfo) : Bool :=
  if self.addr = [] ∧ self.port ≠ 0 then false
  else self.addr = other.addr ∧ self.port = other.port

/-- `operator<`. -/
def less (self other : IpAddrInfo) : Bool := addressLess self.addr other.addr self.port other.port

end IpAddrInfo

namespace IpAddrInfo2

/-- `operator==`. -/
def equals (self other : IpAddrInfo2) : Bool :=
  if self.addr = [] ∧ self.port = [] then false
  else self.addr = other.addr ∧ self.port = other.port

/-- `operator<`. -/
def less (self other : IpAddrInfo2) : Bool := addressLess self.addr other.addr self.port other.port

end IpAddrInfo2

/-! ### Their order -/

section Order

variable {P : Type} [LT P] [DecidableLT P] {a b c : List UInt8} {p q r : P}

lemma addressLess_iff : addressLess a b p q = true ↔ a < b ∨ a = b ∧ p < q := by
  unfold addressLess
  split
  · simp [*]
  · split <;> simp [*]

lemma addressLess_self (hirrefl : ∀ p : P, ¬ p < p) : addressLess a a p p = false := by
  rw [← Bool.not_eq_true, addressLess_iff]
  rintro (h | ⟨-, h⟩)
  · exact List.lt_irrefl a h
  · exact hirrefl p h

lemma addressLess_trans (htrans : ∀ p q r : P, p < q → q < r → p < r) (h : addressLess a b p q = true)
    (h' : addressLess b c q r = true) : addressLess a c p r = true := by
  rw [addressLess_iff] at h h' ⊢
  rcases h with h | ⟨rfl, h⟩
  · rcases h' with h' | ⟨rfl, -⟩
    · exact .inl (List.lt_trans h h')
    · exact .inl h
  · rcases h' with h' | ⟨rfl, h'⟩
    · exact .inl h'
    · exact .inr ⟨rfl, htrans p q r h h'⟩

lemma addressLess_total (htotal : ∀ p q : P, p < q ∨ p = q ∨ q < p) (hne : ¬ (a = b ∧ p = q)) :
    addressLess a b p q = true ∨ addressLess b a q p = true := by
  rw [addressLess_iff, addressLess_iff]
  rcases Std.lt_trichotomy a b with h | rfl | h
  · exact .inl (.inl h)
  · rcases htotal p q with hpq | rfl | hpq
    · exact .inl (.inr ⟨rfl, hpq⟩)
    · exact absurd ⟨rfl, rfl⟩ hne
    · exact .inr (.inr ⟨rfl, hpq⟩)
  · exact .inr (.inl h)

end Order

/-- **Addresses are keys** if and only if each is equal to itself, for an `operator==` that is false for the addresses `odd`
and compares the others by both fields. -/
lemma orderedKeys_address_iff {κ P : Type} [LT P] [DecidableLT P] {eq : κ → κ → Bool} {addr : κ → List UInt8} {port : κ → P}
    {odd : κ → Prop} {S : Set κ} (hext : ∀ a b, addr a = addr b → port a = port b → a = b)
    (heq : ∀ a b, eq a b = true ↔ ¬ odd a ∧ addr a = addr b ∧ port a = port b) (hirrefl : ∀ p : P, ¬ p < p)
    (htrans : ∀ p q r : P, p < q → q < r → p < r) (htotal : ∀ p q : P, p < q ∨ p = q ∨ q < p) :
    OrderedKeys eq (fun a b => addressLess (addr a) (addr b) (port a) (port b)) S ↔ ∀ a ∈ S, ¬ odd a := by
  have hsame : ∀ a b, eq a b = true → a = b := by
    intro a b hab
    obtain ⟨-, haddr, hport⟩ := (heq a b).1 hab
    exact hext a b haddr hport
  have hself_less : ∀ a, addressLess (addr a) (addr a) (port a) (port a) = false := fun a => addressLess_self hirrefl
  have htrans_less : ∀ a b c, addressLess (addr a) (addr b) (port a) (port b) = true →
      addressLess (addr b) (addr c) (port b) (port c) = true → addressLess (addr a) (addr c) (port a) (port c) = true :=
    fun a b c => addressLess_trans htrans
  rw [orderedKeys_iff hsame hself_less htrans_less]
  have hself : ∀ a, eq a a = true ↔ ¬ odd a := fun a => (heq a a).trans (and_iff_left ⟨rfl, rfl⟩)
  simp only [hself]
  refine and_iff_left fun a _ b _ hne => addressLess_total htotal ?_
  rintro ⟨haddr, hport⟩
  exact hne (hext a b haddr hport)

namespace IpAddrInfo

variable {a b : IpAddrInfo}

lemma equals_iff : equals a b = true ↔ ¬ (a.addr = [] ∧ a.port ≠ 0) ∧ a.addr = b.addr ∧ a.port = b.port := by
  unfold equals
  split <;> simp_all

lemma orderedKeys_iff {S : Set IpAddrInfo} : OrderedKeys equals less S ↔ ∀ a ∈ S, ¬ (a.addr = [] ∧ a.port ≠ 0) := by
  refine orderedKeys_address_iff (fun a b haddr hport => ?_) (fun a b => equals_iff) UInt16.lt_irrefl
    (fun p q r => UInt16.lt_trans) fun p q => Std.lt_trichotomy p q
  cases a
  cases b
  simp_all

end IpAddrInfo

namespace IpAddrInfo2

variable {a b : IpAddrInfo2}

lemma equals_iff : equals a b = true ↔ ¬ (a.addr = [] ∧ a.port = []) ∧ a.addr = b.addr ∧ a.port = b.port := by
  unfold equals
  split <;> simp_all

lemma orderedKeys_iff {S : Set IpAddrInfo2} : OrderedKeys equals less S ↔ ∀ a ∈ S, ¬ (a.addr = [] ∧ a.port = []) := by
  refine orderedKeys_address_iff (fun a b haddr hport => ?_) (fun a b => equals_iff) List.lt_irrefl
    (fun p q r => List.lt_trans) fun p q => Std.lt_trichotomy p q
  cases a
  cases b
  simp_all

end IpAddrInfo2

/-! ### Channels and addresses -/

/-- **Channels and addresses are keys** of ordered containers on the sets of them of which any two channels are ordered in all
fields, in the same way, and no address is without a name but has a port, or has neither where the port is a string. -/
theorem addresses_orderedKeys_iff (channels : Set CommChannelInfo) (addrs : Set IpAddrInfo) (addrs2 : Set IpAddrInfo2) :
    (OrderedKeys CommChannelInfo.equals CommChannelInfo.less channels ↔ ∀ a ∈ channels, ∀ b ∈ channels, a ≠ b →
      (a.sourceIp < b.sourceIp ∧ a.sourcePort < b.sourcePort ∧ a.destIp < b.destIp ∧ a.destPort < b.destPort) ∨
      (b.sourceIp < a.sourceIp ∧ b.sourcePort < a.sourcePort ∧ b.destIp < a.destIp ∧ b.destPort < a.destPort)) ∧
    (OrderedKeys IpAddrInfo.equals IpAddrInfo.less addrs ↔ ∀ a ∈ addrs, ¬ (a.addr = [] ∧ a.port ≠ 0)) ∧
    (OrderedKeys IpAddrInfo2.equals IpAddrInfo2.less addrs2 ↔ ∀ a ∈ addrs2, ¬ (a.addr = [] ∧ a.port = [])) :=
  ⟨CommChannelInfo.orderedKeys_iff, IpAddrInfo.orderedKeys_iff, IpAddrInfo2.orderedKeys_iff⟩

/-- Two channels of one source are merged, and there are addresses that are not equal to themselves. -/
theorem addresses_not_orderedKeys :
    ¬ OrderedKeys CommChannelInfo.equals CommChannelInfo.less Set.univ ∧
    ¬ OrderedKeys IpAddrInfo.equals IpAddrInfo.less Set.univ ∧
    ¬ OrderedKeys IpAddrInfo2.equals IpAddrInfo2.less Set.univ := by
  refine ⟨fun h => ?_, fun h => ?_, fun h => ?_⟩
  · have hmerged := h.equivalent_iff ⟨1, 1, 1, 1⟩ trivial ⟨1, 2, 1, 1⟩ trivial
    revert hmerged
    decide
  · have hself := h.eq_refl ⟨[], 80⟩ trivial
    revert hself
    decide
  · have hself := h.eq_refl ⟨[], []⟩ trivial
    revert hself
    decide

end Zutils
