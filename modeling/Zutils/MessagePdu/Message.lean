import Zutils.Net.Codec.Packet

/-!
# Messages in packets (`message_pdu/message_pdu_factory_manager`, `message_pdu/message_pdu_util`)

A message is an object of a class derived from `MessagePDU`. The classes are parameters, named by `κ`: what one adds to
`MessagePDU` are some fields and what its constructor and its overrides do with them. `MessagePDUFactoryManager` has a
factory for each registered type, and a packet is parsed by an object of the class of its type, unless the type is
nullable and has no objects.

`reserved_` is not set by the constructors, so a new object takes what the memory holds.
-/

namespace Zutils.Message

open Zutils.Net

/-- A class derived from `MessagePDU`. `SerializeToArray` gets the bytes that are in the array and returns those that
are there after it. -/
structure MessageClass where
  Fields : Type
  /-- What the constructor leaves in the fields, and in `message_type_`. -/
  init : Fields
  messageType : UInt32
  byteSize : Fields → UInt32
  parseFromArray : Fields → List UInt8 → Bool × Fields
  serializeToArray : Fields → List UInt8 → Bool × List UInt8

variable {κ : Type}

/-- `class MessagePDU`, as part of an object of a class derived from it. -/
structure MessagePDU (classes : κ → MessageClass) where
  cls : κ
  messageType : UInt32
  reserved : UInt16
  fields : (classes cls).Fields

/-- `MessagePDUFactoryTemplate<Message2>`. -/
structure MessagePDUFactory (κ : Type) where
  message2 : κ
  messageType : UInt32
  messageName : String
  nullAble : Bool := false

/-- `MessagePDUFactory::GetUnknownMessageName()`. -/
def kUnknownPDUMessage : String := "UNKNOWN PDU"

/-- Why a call does not return. -/
inductive MessageFault where
  /-- A call through a null pointer. -/
  | nullPointer
  /-- A read behind the end of the array. -/
  | outOfRange
  deriving DecidableEq, Repr

/-- `CreateMessage()`, with what the memory holds where `reserved_` is. -/
def MessagePDUFactory.createMessage (f : MessagePDUFactory κ) (classes : κ → MessageClass) (mem : UInt16) :
    Option (MessagePDU classes) :=
  if f.nullAble then none
  else some ⟨f.message2, (classes f.message2).messageType, mem, (classes f.message2).init⟩

/-- `MessagePDUFactoryManager`: each factory in `factories_` is under its own type. -/
structure MessagePDUFactoryManager (κ : Type) where
  factories : UInt32 → Option (MessagePDUFactory κ)
  messageType_eq : ∀ t f, factories t = some f → f.messageType = t

namespace MessagePDUFactoryManager

/-- After the constructor. -/
def new : MessagePDUFactoryManager κ := ⟨fun _ => none, fun _ _ h => by cases h⟩

/-- `AddFactory`. A type that is there already is a fatal error. -/
def addFactory (m : MessagePDUFactoryManager κ) (factory : MessagePDUFactory κ) :
    Option (MessagePDUFactoryManager κ) :=
  if (m.factories factory.messageType).isSome then none
  else some
    { factories := fun t => if t = factory.messageType then some factory else m.factories t
      messageType_eq := by
        intro t f h
        split at h
        · rename_i ht
          rw [← Option.some.inj h, ht]
        · exact m.messageType_eq t f h }

/-- `CreateMessage`. -/
def createMessage (m : MessagePDUFactoryManager κ) (classes : κ → MessageClass) (mem : UInt16) (messageType : UInt32) :
    Option (MessagePDU classes) :=
  match m.factories messageType with
  | none => none
  | some f => f.createMessage classes mem

/-- `GetMessageNameAndNullable`: what it returns, `*message_name`, and `*null_able`, which it sets for a type that is
registered. -/
def getMessageNameAndNullable (m : MessagePDUFactoryManager κ) (messageType : UInt32) (nullAble : Bool) :
    Bool × String × Bool :=
  match m.factories messageType with
  | none => (false, kUnknownPDUMessage, nullAble)
  | some f => (true, f.messageName, f.nullAble)

end MessagePDUFactoryManager

section Pointers

variable {classes : κ → MessageClass}

/-- `message->ParseFromArray(data, data_len)`. -/
def parseFromArray (message : Option (MessagePDU classes)) (data : List UInt8) :
    Except MessageFault (Bool × MessagePDU classes) :=
  match message with
  | none => .error .nullPointer
  | some message =>
    let (parsed, fields) := (classes message.cls).parseFromArray message.fields data
    .ok (parsed, { message with fields })

/-- `message->SetReserved(val)`. -/
def setReserved (message : Option (MessagePDU classes)) (val : UInt16) :
    Except MessageFault (Option (MessagePDU classes)) :=
  match message with
  | none => .error .nullPointer
  | some message => .ok (some { message with reserved := val })

end Pointers

section Util

variable (m : MessagePDUFactoryManager κ) (classes : κ → MessageClass) (mem : UInt16)

/-- `ParseMessagePDUFromNetPacker`. -/
def parseMessagePDUFromNetPacker (packet : TeamTalkPacket) : Except MessageFault (Option (MessagePDU classes)) :=
  let messageType := packet.getMessageType
  let (found, _, nullAble) := m.getMessageNameAndNullable messageType true
  if found then
    let message := m.createMessage classes mem messageType
    if nullAble then .ok message
    else do
      let (parsed, message) ← parseFromArray message packet.getBodyData
      if parsed then setReserved (some message) packet.getReserved else .ok none
  else .ok none

/-- `ParseMessagePDUFromArrayData(data, data_len)`, where `data_len` is the length of the array. The check is that the
header lies in the array; whether the body does is not checked. -/
def parseMessagePDUFromArrayData (data : Option (List UInt8)) : Except MessageFault (Option (MessagePDU classes)) :=
  match data with
  | none => .ok none
  | some data =>
    if data.length < TeamTalkPacket.kPacketHeaderSize.toNat then .ok none
    else
      let (ret, (messageType, reserved), bodyLen) := TeamTalkPacket.parsePacketHeader data
      if ret = -1 then .ok none
      else
        let (found, _, nullAble) := m.getMessageNameAndNullable messageType true
        if found then
          let message := m.createMessage classes mem messageType
          if nullAble then setReserved message reserved
          else
            let body := data.drop TeamTalkPacket.kPacketHeaderSize.toNat
            if body.length < bodyLen.toNat then .error .outOfRange
            else do
              let (parsed, message) ← parseFromArray message (body.take bodyLen.toNat)
              if parsed then setReserved (some message) reserved else .ok none
        else .ok none

/-- `MessageToPacket`: the packet, or null when `SerializeToArray` fails; `mem` is what fresh memory holds. -/
def messageToPacket {classes : κ → MessageClass} (mem : Mem) (message : MessagePDU classes) :
    Except Fault (Option TeamTalkPacket) := do
  let messageLen := (classes message.cls).byteSize message.fields
  let packet ← TeamTalkPacket.new mem message.messageType message.reserved messageLen
  let (serialized, body) := (classes message.cls).serializeToArray message.fields
    (packet.data.drop TeamTalkPacket.kPacketHeaderSize.toNat)
  if serialized then return some (← packet.copyBody body)
  else return none

end Util

end Zutils.Message
