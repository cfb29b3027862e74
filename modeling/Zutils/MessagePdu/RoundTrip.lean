import Zutils.MessagePdu.Message
import Zutils.Net.Codec.PacketSpec

/-!
# Messages written to packets and parsed back

`Inverts` is what a class with a factory is asked for; with it a message survives `MessageToPacket` and
`ParseMessagePDUFromNetPacker` (`message_round_trip`).

The two parsers do the same with a packet whose type has no factory and with one whose type has objects. For a nullable
type the factory returns null, which `ParseMessagePDUFromNetPacker` returns as well, while `ParseMessagePDUFromArrayData`
calls `SetReserved` through it (`parsers_agree_iff`).
-/

namespace Zutils.Message

open Zutils.Net

variable {κ : Type} {classes : κ → MessageClass} {m : MessagePDUFactoryManager κ} {mem mem' : UInt16}

/-- What is asked of a class with a factory: the constructor sets the type that is registered, and `ParseFromArray` gets
back what `SerializeToArray` makes of an array of `ByteSize()` bytes, whatever was in it. -/
structure MessageClass.Inverts (c : MessageClass) (messageType : UInt32) : Prop where
  messageType_eq : c.messageType = messageType
  parse_serialize : ∀ fields data, data.length = (c.byteSize fields).toNat → ∃ bytes,
    c.serializeToArray fields data = (true, bytes) ∧ bytes.length = data.length ∧
      c.parseFromArray c.init bytes = (true, fields)

section Parse

variable {packet : TeamTalkPacket} {f : MessagePDUFactory κ}

lemma parse_of_unknown (h : m.factories packet.getMessageType = none) :
    parseMessagePDUFromNetPacker m classes mem packet = .ok none := by
  simp [parseMessagePDUFromNetPacker, MessagePDUFactoryManager.getMessageNameAndNullable, h]

/-- What both parsers return for a type with objects. -/
def parsed (classes : κ → MessageClass) (f : MessagePDUFactory κ) (reserved : UInt16) (body : List UInt8) :
    Option (MessagePDU classes) :=
  let r := (classes f.message2).parseFromArray (classes f.message2).init body
  if r.1 then some ⟨f.message2, (classes f.message2).messageType, reserved, r.2⟩ else none

lemma parse_of_registered (h : m.factories packet.getMessageType = some f) (hnull : f.nullAble = false) :
    parseMessagePDUFromNetPacker m classes mem packet =
      .ok (parsed classes f packet.getReserved packet.getBodyData) := by
  simp only [parseMessagePDUFromNetPacker, MessagePDUFactoryManager.getMessageNameAndNullable,
    MessagePDUFactoryManager.createMessage, MessagePDUFactory.createMessage, h, hnull, if_true, Bool.false_eq_true,
    if_false, parseFromArray, setReserved, parsed, ok_bind]
  split <;> rfl

end Parse

/-! ### The round trip -/

section RoundTrip

variable {msg : MessagePDU classes}

lemma messageToPacket_eq {memory : Mem} {bytes : List UInt8}
    (hsize : ((classes msg.cls).byteSize msg.fields).toNat < 2 ^ 32 - 12)
    (hserialize : (classes msg.cls).serializeToArray msg.fields
      (memory.bytes 12 ((classes msg.cls).byteSize msg.fields).toNat) = (true, bytes))
    (hlen : bytes.length = ((classes msg.cls).byteSize msg.fields).toNat) :
    messageToPacket memory msg = .ok (some ⟨TeamTalkPacket.header msg.messageType msg.reserved
      ((classes msg.cls).byteSize msg.fields) ++ bytes⟩) := by
  have hjunk : bytes.length = (memory.bytes 12 ((classes msg.cls).byteSize msg.fields).toNat).length := by
    rw [hlen, Mem.bytes_length]
  rw [messageToPacket, TeamTalkPacket.new_eq memory _ _ (by omega), ok_bind]
  have hdrop : (TeamTalkPacket.header msg.messageType msg.reserved ((classes msg.cls).byteSize msg.fields) ++
      memory.bytes 12 ((classes msg.cls).byteSize msg.fields).toNat).drop TeamTalkPacket.kPacketHeaderSize.toNat =
      memory.bytes 12 ((classes msg.cls).byteSize msg.fields).toNat := List.drop_left' rfl
  simp only [hdrop, hserialize, if_true]
  rw [TeamTalkPacket.copyBody_eq hjunk, ok_bind]
  rfl

/-- **A message survives the packet**: its length, version, type and reserved value are in the header, and parsing the
packet gives the message back. -/
theorem message_round_trip (hclasses : ∀ t f, m.factories t = some f → f.nullAble = false →
      (classes f.message2).Inverts t) {f : MessagePDUFactory κ} (hf : m.factories msg.messageType = some f)
    (hnull : f.nullAble = false) (hcls : f.message2 = msg.cls)
    (hsize : ((classes msg.cls).byteSize msg.fields).toNat < 2 ^ 32 - 12) (memory : Mem) (mem : UInt16) :
    ∃ p, messageToPacket memory msg = .ok (some p) ∧
      p.getRawdataLength.toNat = 12 + ((classes msg.cls).byteSize msg.fields).toNat ∧ p.getVersion = 1 ∧
      p.getMessageType = msg.messageType ∧ p.getReserved = msg.reserved ∧
      parseMessagePDUFromNetPacker m classes mem p = .ok (some msg) := by
  obtain ⟨htype, hinverts⟩ := hclasses _ f hf hnull
  obtain ⟨cls, messageType, reserved, fields⟩ := msg
  obtain rfl : f.message2 = cls := hcls
  obtain ⟨bytes, hserialize, hlen, hparse⟩ := hinverts fields _ Mem.bytes_length
  rw [Mem.bytes_length] at hlen
  refine ⟨_, messageToPacket_eq hsize hserialize hlen, ?_, TeamTalkPacket.getVersion_eq _ _ _ _,
    TeamTalkPacket.getMessageType_eq _ _ _ _, TeamTalkPacket.getReserved_eq _ _ _ _, ?_⟩
  · rw [TeamTalkPacket.getRawdataLength_eq, UInt32.toNat_add, Nat.mod_eq_of_lt, Nat.add_comm]
    · rfl
    · show ((classes f.message2).byteSize fields).toNat + 12 < 2 ^ 32
      have hsize : ((classes f.message2).byteSize fields).toNat < 2 ^ 32 - 12 := hsize
      omega
  · rw [parse_of_registered (f := f) (by rw [TeamTalkPacket.getMessageType_eq]; exact hf) hnull,
      TeamTalkPacket.getReserved_eq, TeamTalkPacket.getBodyData_eq hlen, parsed, hparse]
    simp [htype]

end RoundTrip

/-- A message with one number in it. -/
def counterClass : MessageClass where
  Fields := UInt32
  init := 0
  messageType := 7
  byteSize _ := 4
  parseFromArray _ data := if data.length = 4 then (true, get32 data 0) else (false, 0)
  serializeToArray n _ := (true, put32 n)

/-- The registry with the type 7 for such messages, and the type 8, which is nullable. -/
def counterManager : MessagePDUFactoryManager Unit where
  factories t := if t = 7 then some ⟨(), 7, "Counter", false⟩ else if t = 8 then some ⟨(), 8, "Ping", true⟩ else none
  messageType_eq t f h := by
    split at h
    · rename_i ht
      rw [← Option.some.inj h, ht]
    · split at h
      · rename_i ht
        rw [← Option.some.inj h, ht]
      · cases h

lemma counterClass_inverts : counterClass.Inverts 7 := by
  refine ⟨rfl, fun (n : UInt32) data hlen => ⟨put32 n, rfl, hlen.symm, ?_⟩⟩
  have hget := get32_put32 [] [] n
  rw [List.nil_append, List.append_nil, List.length_nil] at hget
  exact congrArg (Prod.mk true) hget

/-- The number 5, with a reserved value. -/
theorem message_round_trip_counter :
    let msg : MessagePDU (fun _ : Unit => counterClass) := ⟨(), 7, 3, (5 : UInt32)⟩
    ∃ p, messageToPacket (fun _ => 0xCD) msg = .ok (some p) ∧ p.getRawdataLength.toNat = 12 + 4 ∧ p.getVersion = 1 ∧
      p.getMessageType = 7 ∧ p.getReserved = 3 ∧
      parseMessagePDUFromNetPacker counterManager (fun _ => counterClass) 0 p = .ok (some msg) := by
  refine message_round_trip (m := counterManager) ?_ rfl rfl rfl (by decide) (fun _ => 0xCD) 0
  intro t f h hnull
  by_cases h7 : t = 7
  · rw [h7]
    exact counterClass_inverts
  · by_cases h8 : t = 8
    · have h : (if t = 7 then some ⟨(), 7, "Counter", false⟩ else if t = 8 then some ⟨(), 8, "Ping", true⟩ else none) =
        some f := h
      rw [if_neg h7, if_pos h8] at h
      rw [← Option.some.inj h] at hnull
      cases hnull
    · have h : (if t = 7 then some ⟨(), 7, "Counter", false⟩ else if t = 8 then some ⟨(), 8, "Ping", true⟩ else none) =
        some f := h
      rw [if_neg h7, if_neg h8] at h
      cases h

/-! ### The two parsers -/

/-- A packet that the constructor has made and a body has been copied into. -/
def Made (p : TeamTalkPacket) : Prop :=
  ∃ (memory : Mem) (messageType : UInt32) (reserved : UInt16) (bodyLen : UInt32) (p₀ : TeamTalkPacket)
    (body : List UInt8), TeamTalkPacket.new memory messageType reserved bodyLen = .ok p₀ ∧ p₀.copyBody body = .ok p

lemma Made.eq {p : TeamTalkPacket} (h : Made p) : ∃ messageType reserved bodyLen body,
    p = ⟨TeamTalkPacket.header messageType reserved bodyLen ++ body⟩ ∧ body.length = bodyLen.toNat ∧
      bodyLen.toNat + 12 < 2 ^ 32 := by
  obtain ⟨memory, messageType, reserved, bodyLen, p₀, body, hnew, hcopy⟩ := h
  have hlt := bodyLen.toNat_lt
  have hadd : (bodyLen + TeamTalkPacket.kPacketHeaderSize).toNat = (bodyLen.toNat + 12) % 2 ^ 32 :=
    UInt32.toNat_add _ _
  -- the constructor writes 12 bytes into the block
  have hsize : bodyLen.toNat + 12 < 2 ^ 32 := by
    by_contra hge
    have hblock : ¬ 0 + (TeamTalkPacket.header messageType reserved bodyLen).length ≤
        (memory.bytes 0 (bodyLen + TeamTalkPacket.kPacketHeaderSize).toNat).length := by
      rw [Mem.bytes_length, hadd]
      show ¬ 0 + 12 ≤ _
      omega
    have hfail : TeamTalkPacket.new memory messageType reserved bodyLen = .error .outOfRange := by
      show (copyAt (memory.bytes 0 (bodyLen + TeamTalkPacket.kPacketHeaderSize).toNat) 0
        (TeamTalkPacket.header messageType reserved bodyLen) >>= _) = _
      rw [copyAt, if_neg hblock, error_bind]
    rw [hfail] at hnew
    cases hnew
  rw [TeamTalkPacket.new_eq memory messageType reserved hsize] at hnew
  obtain rfl := Except.ok.inj hnew
  obtain ⟨data, hdata, hp⟩ := bind_eq_ok.1 hcopy
  obtain rfl := Except.ok.inj hp
  have hbody : body.length ≤ bodyLen.toNat := by
    by_contra hgt
    have hblock : ¬ TeamTalkPacket.kPacketHeaderSize.toNat + body.length ≤
        (TeamTalkPacket.header messageType reserved bodyLen ++ memory.bytes 12 bodyLen.toNat).length := by
      rw [List.length_append, Mem.bytes_length]
      show ¬ 12 + body.length ≤ 12 + bodyLen.toNat
      omega
    rw [copyAt, if_neg hblock] at hdata
    cases hdata
  refine ⟨messageType, reserved, bodyLen, body ++ (memory.bytes 12 bodyLen.toNat).drop body.length, ?_, ?_, hsize⟩
  · have hcopy := copyAt_append (u := TeamTalkPacket.header messageType reserved bodyLen)
      (v := memory.bytes 12 bodyLen.toNat) body (by rwa [Mem.bytes_length])
    rw [← List.append_assoc, ← Except.ok.inj (hdata.symm.trans hcopy)]
  · rw [List.length_append, List.length_drop, Mem.bytes_length]
    omega

section Array

variable {messageType : UInt32} {reserved : UInt16} {bodyLen : UInt32} {body : List UInt8}

lemma parsePacketHeader_header (hsize : bodyLen + TeamTalkPacket.kPacketHeaderSize ≤ TeamTalkPacket.kMaxPacketSize)
    (hlt : bodyLen.toNat + 12 < 2 ^ 32) : ∃ ret : ℤ, ret ≠ -1 ∧
    TeamTalkPacket.parsePacketHeader (TeamTalkPacket.header messageType reserved bodyLen ++ body) =
      (ret, (messageType, reserved), bodyLen) := by
  have hadd : (bodyLen + TeamTalkPacket.kPacketHeaderSize).toNat = bodyLen.toNat + 12 := by
    rw [UInt32.toNat_add, Nat.mod_eq_of_lt (by exact hlt)]
    rfl
  have hmax : bodyLen.toNat + 12 ≤ 64 * 1024 * 1024 := by
    rw [UInt32.le_iff_toNat_le, hadd] at hsize
    exact hsize
  refine ⟨if bodyLen > 0 then 0 else 1, ?_, ?_⟩
  · split <;> decide
  · rw [TeamTalkPacket.parsePacketHeader_eq _ _ _ _ hlt, if_neg (Nat.not_lt.2 hmax)]

variable {f : MessagePDUFactory κ}

lemma parseArray_eq (hsize : bodyLen + TeamTalkPacket.kPacketHeaderSize ≤ TeamTalkPacket.kMaxPacketSize)
    (hlt : bodyLen.toNat + 12 < 2 ^ 32) (hbody : body.length = bodyLen.toNat) :
    parseMessagePDUFromArrayData m classes mem
        (some (TeamTalkPacket.header messageType reserved bodyLen ++ body)) =
      match m.factories messageType with
      | none => .ok none
      | some f => if f.nullAble then .error .nullPointer else .ok (parsed classes f reserved body) := by
  obtain ⟨ret, hret, hheader⟩ : ∃ ret : ℤ, ret ≠ -1 ∧
      TeamTalkPacket.parsePacketHeader (TeamTalkPacket.header messageType reserved bodyLen ++ body) =
        (ret, (messageType, reserved), bodyLen) := parsePacketHeader_header hsize hlt
  have hdrop : (TeamTalkPacket.header messageType reserved bodyLen ++ body).drop
      TeamTalkPacket.kPacketHeaderSize.toNat = body := List.drop_left' rfl
  have hlong : ¬ (TeamTalkPacket.header messageType reserved bodyLen ++ body).length <
      TeamTalkPacket.kPacketHeaderSize.toNat := by
    rw [List.length_append]
    show ¬ 12 + body.length < 12
    omega
  simp only [parseMessagePDUFromArrayData, if_neg hlong, hheader, if_neg hret,
    MessagePDUFactoryManager.getMessageNameAndNullable, MessagePDUFactoryManager.createMessage, hdrop, hbody,
    Nat.lt_irrefl, if_false]
  rw [← hbody, List.take_length]
  rcases m.factories messageType with _ | f
  · rfl
  · obtain ⟨message2, type, name, nullAble⟩ := f
    cases nullAble with
    | true => rfl
    | false =>
      simp only [if_true, MessagePDUFactory.createMessage, Bool.false_eq_true, if_false, parseFromArray, setReserved,
        parsed, ok_bind]
      split <;> rfl

end Array

/-- Both calls return null, or messages of the same class with the same content and reserved value. -/
def Agree (x y : Except MessageFault (Option (MessagePDU classes))) : Prop :=
  x = .ok none ∧ y = .ok none ∨
  ∃ a b : MessagePDU classes, x = .ok (some a) ∧ y = .ok (some b) ∧ a.reserved = b.reserved ∧
    (⟨a.cls, a.fields⟩ : Σ c, (classes c).Fields) = ⟨b.cls, b.fields⟩

lemma agree_of_eq {x y : Except MessageFault (Option (MessagePDU classes))} {r : Option (MessagePDU classes)}
    (hx : x = .ok r) (hy : y = .ok r) : Agree x y := by
  cases r with
  | none => exact .inl ⟨hx, hy⟩
  | some a => exact .inr ⟨a, a, hx, hy, rfl, rfl⟩

/-- **The two parsers agree** on a packet if and only if its type is not registered as nullable. -/
theorem parsers_agree_iff (m : MessagePDUFactoryManager κ) (classes : κ → MessageClass) (mem mem' : UInt16)
    {p : TeamTalkPacket} (hp : Made p) (hmax : p.getRawdataLength ≤ TeamTalkPacket.kMaxPacketSize) :
    Agree (parseMessagePDUFromArrayData m classes mem (some (p.data.take p.getRawdataLength.toNat)))
        (parseMessagePDUFromNetPacker m classes mem' p) ↔
      ∀ f, m.factories p.getMessageType = some f → f.nullAble = false := by
  obtain ⟨messageType, reserved, bodyLen, body, rfl, hbody, hlt⟩ := hp.eq
  rw [TeamTalkPacket.getRawdataLength_eq] at hmax
  have htake : (TeamTalkPacket.header messageType reserved bodyLen ++ body).take
      (TeamTalkPacket.getRawdataLength ⟨TeamTalkPacket.header messageType reserved bodyLen ++ body⟩).toNat =
      TeamTalkPacket.header messageType reserved bodyLen ++ body := by
    rw [TeamTalkPacket.getRawdataLength_eq, UInt32.toNat_add, Nat.mod_eq_of_lt (by exact hlt), ← hbody]
    apply List.take_of_length_le
    rw [List.length_append]
    exact Nat.le_of_eq (Nat.add_comm _ _)
  rw [htake, parseArray_eq hmax hlt hbody, TeamTalkPacket.getMessageType_eq]
  rcases hf : m.factories messageType with _ | f
  · refine iff_of_true (agree_of_eq rfl (parse_of_unknown ?_)) (by simp)
    rw [TeamTalkPacket.getMessageType_eq, hf]
  · have hfactory : m.factories (TeamTalkPacket.getMessageType
        ⟨TeamTalkPacket.header messageType reserved bodyLen ++ body⟩) = some f := by
      rw [TeamTalkPacket.getMessageType_eq, hf]
    cases hnull : f.nullAble with
    | true =>
      refine iff_of_false ?_ fun h => by simp [h f rfl] at hnull
      rintro (⟨hx, -⟩ | ⟨a, b, hx, -⟩)
      · simp [hnull] at hx
      · simp [hnull] at hx
    | false =>
      refine iff_of_true (agree_of_eq (by simp only [hnull, Bool.false_eq_true, if_false]; rfl) ?_) ?_
      · rw [parse_of_registered hfactory hnull, TeamTalkPacket.getReserved_eq, TeamTalkPacket.getBodyData_eq hbody]
      · rintro _ ⟨⟩
        exact hnull

/-- A packet with the type 7 and a number as its body. -/
theorem parsers_agree_iff_counter : ∃ p, Made p ∧ p.getMessageType = 7 ∧
    Agree (parseMessagePDUFromArrayData counterManager (fun _ => counterClass) 1
      (some (p.data.take p.getRawdataLength.toNat)))
    (parseMessagePDUFromNetPacker counterManager (fun _ => counterClass) 2 p) := by
  have hmade : Made ⟨TeamTalkPacket.header 7 3 4 ++ [0, 0, 0, 5]⟩ :=
    ⟨fun _ => 0xCD, 7, 3, 4, _, [0, 0, 0, 5], rfl, rfl⟩
  refine ⟨_, hmade, rfl, (parsers_agree_iff counterManager _ 1 2 hmade (by decide)).2 ?_⟩
  rintro f ⟨⟩
  rfl

/-- **A nullable type** makes the array parser call through a null pointer. -/
theorem nullAble_dereferenced : ∃ p, Made p ∧ p.getRawdataLength ≤ TeamTalkPacket.kMaxPacketSize ∧
    p.data.length = p.getRawdataLength.toNat ∧
    parseMessagePDUFromArrayData counterManager (fun _ => counterClass) 1 (some p.data) = .error .nullPointer ∧
    parseMessagePDUFromNetPacker counterManager (fun _ => counterClass) 2 p = .ok none ∧
    ¬ Agree (parseMessagePDUFromArrayData counterManager (fun _ => counterClass) 1
        (some (p.data.take p.getRawdataLength.toNat)))
      (parseMessagePDUFromNetPacker counterManager (fun _ => counterClass) 2 p) := by
  have hmade : Made ⟨TeamTalkPacket.header 8 0 0 ++ []⟩ := ⟨fun _ => 0xCD, 8, 0, 0, _, [], rfl, rfl⟩
  refine ⟨_, hmade, by decide, rfl, rfl, rfl, ?_⟩
  rintro (⟨hx, -⟩ | ⟨a, b, hx, -⟩)
  · cases hx
  · cases hx

end Zutils.Message
