import Zutils.MessagePdu.RoundTrip

/-!
# The lengths that the array parser relies on

`ParseMessagePDUFromArrayData` checks that the header lies in the array. The range behind it that it hands to
`ParseFromArray` has the length that the header says, and so has the whole packet in its check of the header; neither
is compared with the length of the array. `trusts_no_length_iff` says for which arrays this does no harm.
-/

namespace Zutils.Message

open Zutils.Net

variable {κ : Type} {m : MessagePDUFactoryManager κ} {classes : κ → MessageClass} {mem : UInt16} {data : List UInt8}

/-- `packet_len` in `ParsePacketHeader`. -/
def statedLength (data : List UInt8) : ℕ := (get32 data 0).toNat

/-- The header lies in the array and `ParsePacketHeader` accepts it. -/
def HeaderAccepted (data : List UInt8) : Prop :=
  TeamTalkPacket.kPacketHeaderSize.toNat ≤ data.length ∧ (TeamTalkPacket.parsePacketHeader data).1 ≠ -1

/-- The class of the type in the header, if the type is registered. -/
def factoryOf (m : MessagePDUFactoryManager κ) (data : List UInt8) : Option (MessagePDUFactory κ) :=
  m.factories (get32 data 4)

instance (data : List UInt8) : Decidable (HeaderAccepted data) := by
  unfold HeaderAccepted
  infer_instance

/-- The range of the array that is handed to `ParseFromArray`, by its ends, if it is called: for a header that is
accepted, with a type that has objects. -/
def handedRange (m : MessagePDUFactoryManager κ) (data : List UInt8) : Option (ℕ × ℕ) :=
  if HeaderAccepted data then
    (factoryOf m data).bind fun f =>
      if f.nullAble then none
      else some (TeamTalkPacket.kPacketHeaderSize.toNat,
        TeamTalkPacket.kPacketHeaderSize.toNat + (TeamTalkPacket.parsePacketHeader data).2.2.toNat)
  else none

/-- **No length is trusted**: what is handed on lies in the array, nothing behind the array is read, and a header that
says more than there is gives null. -/
structure TrustsNoLength (m : MessagePDUFactoryManager κ) (classes : κ → MessageClass) (mem : UInt16)
    (data : List UInt8) : Prop where
  inside : ∀ first last, handedRange m data = some (first, last) → first ≤ last ∧ last ≤ data.length
  in_array : parseMessagePDUFromArrayData m classes mem (some data) ≠ .error .outOfRange
  too_long : TeamTalkPacket.kPacketHeaderSize.toNat ≤ data.length → data.length < statedLength data →
    parseMessagePDUFromArrayData m classes mem (some data) = .ok none

/-! ### What the header says -/

/-- A header that is accepted says at least its own length, and the length of the body is the rest. -/
lemma parsePacketHeader_accepted (h : (TeamTalkPacket.parsePacketHeader data).1 ≠ -1) :
    (TeamTalkPacket.parsePacketHeader data).2.1 = (get32 data 4, get16 data 10) ∧
      (TeamTalkPacket.parsePacketHeader data).2.2.toNat + 12 = statedLength data := by
  unfold TeamTalkPacket.parsePacketHeader at h ⊢
  unfold statedLength
  dsimp only at h ⊢
  split at h
  · exact absurd rfl h
  rename_i hvalid
  have hmin : 12 ≤ (get32 data 0).toNat := by
    by_contra hlt
    exact hvalid (.inr (.inr (UInt32.lt_iff_toNat_lt.2 (Nat.not_le.1 hlt))))
  rw [if_neg hvalid]
  split
  · rename_i heq
    rw [heq]
    exact ⟨rfl, rfl⟩
  · refine ⟨rfl, ?_⟩
    have hle : TeamTalkPacket.kPacketHeaderSize ≤ get32 data 0 := UInt32.le_iff_toNat_le.2 hmin
    show (get32 data 0 - TeamTalkPacket.kPacketHeaderSize).toNat + 12 = _
    rw [UInt32.toNat_sub_of_le _ _ hle]
    exact Nat.sub_add_cancel hmin

lemma parseArray_refused (h : ¬ HeaderAccepted data) :
    parseMessagePDUFromArrayData m classes mem (some data) = .ok none := by
  unfold HeaderAccepted at h
  unfold parseMessagePDUFromArrayData
  dsimp only
  by_cases hshort : data.length < TeamTalkPacket.kPacketHeaderSize.toNat
  · rw [if_pos hshort]
  · rw [if_neg hshort, if_pos]
    by_contra hret
    exact h ⟨Nat.not_lt.1 hshort, hret⟩

section Accepted

variable (h : HeaderAccepted data)
include h

lemma parseArray_accepted : parseMessagePDUFromArrayData m classes mem (some data) =
    if (m.getMessageNameAndNullable (get32 data 4) true).1 then
      if (m.getMessageNameAndNullable (get32 data 4) true).2.2 then
        setReserved (m.createMessage classes mem (get32 data 4)) (get16 data 10)
      else if data.length < statedLength data then .error .outOfRange
      else do
        let r ← parseFromArray (m.createMessage classes mem (get32 data 4))
          ((data.drop 12).take (statedLength data - 12))
        if r.1 then setReserved (some r.2) (get16 data 10) else .ok none
    else .ok none := by
  obtain ⟨hshort, hret⟩ := h
  obtain ⟨hfields, hlen⟩ := parsePacketHeader_accepted hret
  have htake : (TeamTalkPacket.parsePacketHeader data).2.2.toNat = statedLength data - 12 := by omega
  have hbody : (data.drop TeamTalkPacket.kPacketHeaderSize.toNat).length < statedLength data - 12 ↔
      data.length < statedLength data := by
    have hshort : 12 ≤ data.length := hshort
    rw [List.length_drop]
    show data.length - 12 < _ ↔ _
    omega
  unfold parseMessagePDUFromArrayData
  simp only [if_neg (Nat.not_lt.2 hshort), if_neg hret, hfields, hbody, htake]
  rfl

lemma parseArray_unknown (hf : factoryOf m data = none) :
    parseMessagePDUFromArrayData m classes mem (some data) = .ok none := by
  unfold factoryOf at hf
  rw [parseArray_accepted h, MessagePDUFactoryManager.getMessageNameAndNullable, hf]
  rfl

variable {f : MessagePDUFactory κ}

/-- A nullable type has no objects, and the range behind the header is not looked at. -/
lemma parseArray_nullAble (hf : factoryOf m data = some f) (hnull : f.nullAble = true) :
    parseMessagePDUFromArrayData m classes mem (some data) = .error .nullPointer := by
  unfold factoryOf at hf
  rw [parseArray_accepted h, MessagePDUFactoryManager.getMessageNameAndNullable,
    MessagePDUFactoryManager.createMessage, hf]
  simp [hnull, MessagePDUFactory.createMessage, setReserved]

lemma parseArray_registered (hf : factoryOf m data = some f) (hnull : f.nullAble = false) :
    parseMessagePDUFromArrayData m classes mem (some data) =
      if data.length < statedLength data then .error .outOfRange
      else .ok (parsed classes f (get16 data 10) ((data.drop 12).take (statedLength data - 12))) := by
  unfold factoryOf at hf
  rw [parseArray_accepted h, MessagePDUFactoryManager.getMessageNameAndNullable,
    MessagePDUFactoryManager.createMessage, hf]
  simp only [hnull, MessagePDUFactory.createMessage, parseFromArray, setReserved, parsed, if_true, Bool.false_eq_true,
    if_false, ok_bind]
  split
  · rfl
  · split <;> rfl

end Accepted

/-- The range that is handed on, for a type with objects. -/
lemma handedRange_registered {f : MessagePDUFactory κ} (h : HeaderAccepted data) (hf : factoryOf m data = some f)
    (hnull : f.nullAble = false) : handedRange m data = some (12, statedLength data) := by
  obtain ⟨-, hlen⟩ := parsePacketHeader_accepted h.2
  rw [handedRange, if_pos h, hf, Option.bind_some, hnull, ← hlen, Nat.add_comm]
  rfl

/-! ### Which arrays do no harm -/

/-- Nothing is trusted where nothing is handed on and the result is null. -/
lemma trusts_of_null (hrange : handedRange m data = none)
    (hparse : parseMessagePDUFromArrayData m classes mem (some data) = .ok none) : TrustsNoLength m classes mem data where
  inside first last hfirst := by
    rw [hrange] at hfirst
    cases hfirst
  in_array := by
    rw [hparse]
    simp
  too_long _ _ := hparse

/-- **The parser trusts no length** if and only if the header is refused, its type is not registered, or the length that
it says is at most that of the array. -/
theorem trusts_no_length_iff (m : MessagePDUFactoryManager κ) (classes : κ → MessageClass) (mem : UInt16)
    (data : List UInt8) :
    TrustsNoLength m classes mem data ↔
      ¬ HeaderAccepted data ∨ factoryOf m data = none ∨ statedLength data ≤ data.length := by
  by_cases h : HeaderAccepted data
  swap
  · exact iff_of_true (trusts_of_null (if_neg h) (parseArray_refused h)) (.inl h)
  simp only [h, not_true_eq_false, false_or]
  rcases hf : factoryOf m data with _ | f
  · have hrange : handedRange m data = none := by
      rw [handedRange, if_pos h, hf]
      rfl
    exact iff_of_true (trusts_of_null hrange (parseArray_unknown h hf)) (.inl rfl)
  simp only [reduceCtorEq, false_or]
  cases hnull : f.nullAble with
  | true =>
    have hparse : parseMessagePDUFromArrayData m classes mem (some data) = .error .nullPointer :=
      parseArray_nullAble h hf hnull
    constructor
    · rintro ⟨-, -, htoo⟩
      by_contra hlt
      have hnone := htoo h.1 (Nat.not_le.1 hlt)
      rw [hparse] at hnone
      cases hnone
    · intro hle
      refine ⟨?_, ?_, fun _ hlt => absurd hle (Nat.not_le.2 hlt)⟩
      · intro first last hrange
        rw [handedRange, if_pos h, hf, Option.bind_some, hnull] at hrange
        cases hrange
      · rw [hparse]
        simp
  | false =>
    have hparse : parseMessagePDUFromArrayData m classes mem (some data) =
        if data.length < statedLength data then .error .outOfRange
        else .ok (parsed classes f (get16 data 10) ((data.drop 12).take (statedLength data - 12))) :=
      parseArray_registered h hf hnull
    have hrange := handedRange_registered h hf hnull
    obtain ⟨-, hlen⟩ := parsePacketHeader_accepted h.2
    constructor
    · rintro ⟨hinside, -, -⟩
      exact (hinside _ _ hrange).2
    · intro hle
      rw [if_neg (Nat.not_lt.2 hle)] at hparse
      refine ⟨?_, ?_, fun _ hlt => absurd hle (Nat.not_le.2 hlt)⟩
      · rintro first last hfirst
        obtain ⟨rfl, rfl⟩ := Prod.mk.inj (Option.some.inj (hrange.symm.trans hfirst))
        exact ⟨by omega, hle⟩
      · rw [hparse]
        simp

/-- **A header that says more than there is**: twelve bytes of a header for 16, of a type with objects. The body is read
behind the array. -/
theorem body_behind_array :
    let data : List UInt8 := [0, 0, 0, 16, 0, 0, 0, 7, 0, 1, 0, 0]
    handedRange counterManager data = some (12, 16) ∧
    parseMessagePDUFromArrayData counterManager (fun _ => counterClass) 0 (some data) = .error .outOfRange ∧
    ¬ TrustsNoLength counterManager (fun _ => counterClass) 0 data :=
  ⟨rfl, rfl, fun h => h.in_array rfl⟩

end Zutils.Message
