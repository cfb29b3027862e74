import Zutils.Base.ByteOrder

/-!
# The byte stream (`base2/byte_stream`)

A `ByteStream` reads typed values from a buffer and writes them to it. It is made over a buffer of the caller's, or
over none, and then it allocates one as it is written to. `Alloc` is virtual, so what can call it takes the `Alloc`
of the object as an argument. All positions and lengths are `uint32` and wrap.

A `const` method that sets the cursor is a function to the new state. What a read stores through the reference it was
given is in its result, and an operator that fails gives the old value back.
-/

namespace Zutils

/-- Why a call on a stream does not return: a `memcpy` left its blocks, a `CHECK` failed, or a loop does not end. -/
inductive StreamFault where
  | outOfRange
  | check
  | diverges
  deriving DecidableEq, Repr

/-- What `malloc` and `realloc` answer: on a request for so many bytes in place of a block, NULL, or the contents of
fresh memory. -/
abbrev Heap := Option (List UInt8) → ℕ → Option (ℕ → UInt8)

/-- `realloc(block, n)`, which is `malloc(n)` when there is no block. -/
def Heap.realloc (heap : Heap) (block : Option (List UInt8)) (n : ℕ) : Option (List UInt8) :=
  (heap block n).map fun fresh =>
    (block.getD []).take n ++ (List.range' (block.getD []).length (n - (block.getD []).length)).map fresh

/-- `while (size < new_len) size += step;`, for at most so many turns. -/
def grow (step newLen : UInt32) : ℕ → UInt32 → Option UInt32
  | 0, _ => none
  | fuel + 1, size => if size < newLen then grow step newLen fuel (size + step) else some size

/-- The loop, whose variable has `2 ^ 32` values: what has not ended after so many turns never does. -/
def growLoop (step newLen size : UInt32) : Except StreamFault UInt32 :=
  match grow step newLen (2 ^ 32) size with
  | some size => .ok size
  | none => .error .diverges

/-- `class ByteStream`; `buffer_` points to the byte `offset` of `block`, and is NULL when there is none. -/
structure ByteStream where
  block : Option (List UInt8)
  offset : ℕ
  isNew : Bool
  maxLen : UInt32
  dataLen : UInt32
  currentPos : UInt32
  failed : Bool
  deriving DecidableEq, Repr

namespace ByteStream

/-- `ByteStream()`. -/
def new : ByteStream := ⟨none, 0, true, 0, 0, 0, false⟩

/-- `ByteStream(buffer, data_len)`. -/
def ofBuffer (block : Option (List UInt8)) (offset : ℕ) (dataLen : UInt32) : ByteStream :=
  ⟨block, offset, false, dataLen, dataLen, 0, false⟩

/-- An overrider of `Alloc`: whether it returns a pointer and not NULL, and the stream after it. -/
abbrev Alloc := ByteStream → UInt32 → Except StreamFault (Bool × ByteStream)

/-- `ByteStream::Alloc(new_len)`. -/
def alloc (heap : Heap) : Alloc := fun s newLen =>
  if s.failed then .ok (false, s)
  else if ¬ s.isNew then .ok (false, { s with failed := true })
  else if newLen > s.maxLen then do
    let newBufferSize ← growLoop 4096 newLen s.maxLen
    match heap.realloc s.block newBufferSize.toNat with
    | none => return (false, { s with block := none, failed := true })
    | some block => return (true, { s with block := some block, maxLen := newBufferSize })
  else .ok (s.block.isSome, s)

/-! ### The cursor -/

/-- `Seek(pos)`. -/
def seek (s : ByteStream) (pos : UInt32) : Int32 × ByteStream :=
  if pos > s.maxLen then (-1, s)
  else (s.currentPos.toInt32, { s with currentPos := pos, failed := false })

def tell (s : ByteStream) : UInt32 := s.currentPos

/-- `Skip(pos)`. -/
def skip (s : ByteStream) (pos : UInt32) : Int32 × ByteStream :=
  if s.currentPos + pos > s.maxLen then (-1, s)
  else (0, { s with currentPos := s.currentPos + pos, failed := false })

def fail (s : ByteStream) : Bool := s.failed

def length (s : ByteStream) : UInt32 := s.dataLen

/-- The `n` bytes at `buffer_ + current_pos_`. -/
def load (s : ByteStream) (n : ℕ) : Except StreamFault (List UInt8) :=
  let pos := s.offset + s.currentPos.toNat
  if pos + n ≤ (s.block.getD []).length then .ok (((s.block.getD []).drop pos).take n) else .error .outOfRange

/-- `memcpy(buffer_ + current_pos_, data, n)`. -/
def store (s : ByteStream) (data : List UInt8) (n : ℕ) : Except StreamFault ByteStream :=
  let pos := s.offset + s.currentPos.toNat
  let block := s.block.getD []
  if n ≤ data.length ∧ pos + n ≤ block.length then
    .ok { s with block := some (block.take pos ++ data.take n ++ block.drop (pos + n)) }
  else .error .outOfRange

/-! ### Reading -/

/-- `ReadRawData(data, data_len)`: the bytes it stores when it returns 0, and nothing when it returns -1. -/
def readRawData (s : ByteStream) (dataLen : UInt32) : Except StreamFault (Option (List UInt8) × ByteStream) :=
  if s.failed then .ok (none, s)
  else if s.currentPos + dataLen > s.maxLen then .ok (none, { s with failed := true })
  else if dataLen = 0 then .ok (some [], s)
  else do
    let data ← s.load dataLen.toNat
    return (some data, { s with currentPos := s.currentPos + dataLen })

/-- What `ReadString(str)` does once it knows the length. -/
def readChars (s : ByteStream) (l : UInt32) : Except StreamFault (Option (List UInt8) × ByteStream) :=
  if s.currentPos + l > s.maxLen then .ok (none, { s with failed := true })
  else do
    let str ← s.load l.toNat
    return (some str, { s with currentPos := s.currentPos + l })

/-- `ReadString(str)`: the string when it returns 0, and nothing when it returns -1. -/
def readString (s : ByteStream) : Except StreamFault (Option (List UInt8) × ByteStream) := do
  let (ch, s) ← s.readRawData 4
  match ch with
  | none => return (none, s)
  | some ch => s.readChars (get32 ch 0)

/-- `ReadRawData(s, l)` into the memory at `s`: whether it returns 0, and the memory after it. -/
def readInto (s : ByteStream) (str : List UInt8) (l : UInt32) :
    Except StreamFault (Bool × List UInt8 × ByteStream) := do
  let (data, s) ← s.readRawData l
  match data with
  | none => return (false, str, s)
  | some data =>
    if data.length ≤ str.length then return (true, data ++ str.drop data.length, s) else throw .outOfRange

/-- `ReadString(s, data_len)`. A string that is too long is cut, and the last byte is set before the read. -/
def readCString (s : ByteStream) (str : List UInt8) (dataLen : UInt32) :
    Except StreamFault (Bool × List UInt8 × ByteStream) := do
  let (ch, s) ← s.readRawData 4
  match ch with
  | none => return (false, str, s)
  | some ch =>
    if get32 ch 0 > dataLen then
      if (dataLen - 1).toNat < str.length then s.readInto (str.set (dataLen - 1).toNat 0) dataLen
      else throw .outOfRange
    else s.readInto str (get32 ch 0)

/-- The check and the read that `>>` makes for a value of one byte. The sum in the check is a `size_t`. -/
def readByte (s : ByteStream) : Except StreamFault (Option UInt8 × ByteStream) :=
  if s.currentPos.toNat + 1 > s.maxLen.toNat then .ok (none, { s with failed := true })
  else do
    let ch ← s.load 1
    return (some (ch.getD 0 0), { s with currentPos := s.currentPos + 1 })

/-- `(int16)((ch[0] & 0xFF) << 8) | (ch[1] & 0xFF)`. -/
def getInt16 (ch : List UInt8) : Int16 :=
  ((ch.getD 0 0).toUInt16 <<< 8).toInt16 ||| (ch.getD 1 0).toUInt16.toInt16

/-- `(int32)(( ch[0] & 0xFF) << 24) | ((ch[1] & 0xFF) << 16) | ((ch[2] & 0xFF) <<  8) | (ch[3] & 0xFF)`. -/
def getInt32 (ch : List UInt8) : Int32 :=
  ((ch.getD 0 0).toUInt32 <<< 24).toInt32 ||| ((ch.getD 1 0).toUInt32 <<< 16).toInt32 |||
    ((ch.getD 2 0).toUInt32 <<< 8).toInt32 ||| (ch.getD 3 0).toUInt32.toInt32

/-- The types that `>>` and `<<` are overloaded for. -/
inductive FieldType where
  | bool | char | uint8 | int16 | uint16 | int32 | uint32 | string
  deriving DecidableEq, Repr

/-- The values of a type. -/
abbrev FieldType.Val : FieldType → Type
  | .bool => Bool
  | .char => Int8
  | .uint8 => UInt8
  | .int16 => Int16
  | .uint16 => UInt16
  | .int32 => Int32
  | .uint32 => UInt32
  | .string => List UInt8

/-- A typed value. -/
abbrev Value := (t : FieldType) × t.Val

/-- `operator >> (std::string& str)`. -/
def readStr (s : ByteStream) (str : List UInt8) : Except StreamFault (List UInt8 × ByteStream) := do
  let (r, s) ← s.readString
  return (r.getD str, s)

/-- `operator >> (bool& b)`. -/
def readBool (s : ByteStream) (b : Bool) : Except StreamFault (Bool × ByteStream) := do
  let (ch, s) ← s.readByte
  return ((ch.map fun c => c != 0).getD b, s)

/-- `operator >> (uint8& ch)`. -/
def readUInt8 (s : ByteStream) (ch : UInt8) : Except StreamFault (UInt8 × ByteStream) := do
  let (c, s) ← s.readByte
  return (c.getD ch, s)

/-- `operator >> (char& ch)`. -/
def readChar (s : ByteStream) (ch : Int8) : Except StreamFault (Int8 × ByteStream) := do
  let (c, s) ← s.readByte
  return ((c.map UInt8.toInt8).getD ch, s)

/-- `operator >> (int16& s)`. -/
def readInt16 (s : ByteStream) (v : Int16) : Except StreamFault (Int16 × ByteStream) := do
  let (ch, s) ← s.readRawData 2
  return ((ch.map getInt16).getD v, s)

/-- `operator >> (uint16& s)`. -/
def readUInt16 (s : ByteStream) (v : UInt16) : Except StreamFault (UInt16 × ByteStream) := do
  let (ch, s) ← s.readRawData 2
  return ((ch.map (get16 · 0)).getD v, s)

/-- `operator >> (int32& l)`. -/
def readInt32 (s : ByteStream) (v : Int32) : Except StreamFault (Int32 × ByteStream) := do
  let (ch, s) ← s.readRawData 4
  return ((ch.map getInt32).getD v, s)

/-- `operator >> (uint32& l)`. -/
def readUInt32 (s : ByteStream) (v : UInt32) : Except StreamFault (UInt32 × ByteStream) := do
  let (ch, s) ← s.readRawData 4
  return ((ch.map (get32 · 0)).getD v, s)

/-- `operator >>` into a variable of the type `t`, which holds the given value before. -/
def read (s : ByteStream) : (t : FieldType) → t.Val → Except StreamFault (t.Val × ByteStream)
  | .bool, b => s.readBool b
  | .char, ch => s.readChar ch
  | .uint8, ch => s.readUInt8 ch
  | .int16, v => s.readInt16 v
  | .uint16, v => s.readUInt16 v
  | .int32, v => s.readInt32 v
  | .uint32, v => s.readUInt32 v
  | .string, str => s.readStr str

/-- `operator >>` into a variable. -/
def extract (s : ByteStream) (dest : Value) : Except StreamFault (Value × ByteStream) := do
  let (v, s) ← s.read dest.1 dest.2
  return (⟨dest.1, v⟩, s)

/-! ### Writing -/

variable (alloc : Alloc)

/-- `memcpy`, and what `WriteRawData` does after it. -/
def putRawData (s : ByteStream) (data : List UInt8) (dataLen : UInt32) : Except StreamFault (Bool × ByteStream) := do
  let s ← s.store data dataLen.toNat
  let pos := s.currentPos + dataLen
  return (true, { s with currentPos := pos, dataLen := if s.dataLen < pos then pos else s.dataLen })

/-- `WriteRawData(data, data_len)`: whether it returns 0 and not -1. -/
def writeRawData (s : ByteStream) (data : List UInt8) (dataLen : UInt32) : Except StreamFault (Bool × ByteStream) :=
  if s.failed then .ok (false, s)
  else if dataLen = 0 then .ok (true, s)
  else if s.currentPos + dataLen > s.maxLen then
    if s.isNew then do
      let (p, s) ← alloc s (s.currentPos + dataLen)
      if p then s.putRawData data dataLen else return (false, s)
    else .ok (false, s)
  else s.putRawData data dataLen

/-- `WriteString(str)`. The length of the string is cut to 32 bits. -/
def writeString (s : ByteStream) (str : List UInt8) : Except StreamFault (Bool × ByteStream) := do
  let len := UInt32.ofNat str.length
  let (ok, s) ← s.writeRawData alloc (put32 len) 4
  if ok then s.writeRawData alloc str len else return (false, s)

/-- `(s >> 8) & 0xff` and `s & 0xff`. -/
def putInt16 (v : Int16) : List UInt8 := [(v >>> 8 &&& 0xff).toUInt16.toUInt8, (v &&& 0xff).toUInt16.toUInt8]

/-- `(l >> 24) & 0xff` and so on. -/
def putInt32 (v : Int32) : List UInt8 :=
  [(v >>> 24 &&& 0xff).toUInt32.toUInt8, (v >>> 16 &&& 0xff).toUInt32.toUInt8, (v >>> 8 &&& 0xff).toUInt32.toUInt8,
    (v &&& 0xff).toUInt32.toUInt8]

/-- `operator <<`: the result of the write is dropped. -/
def insert (s : ByteStream) (v : Value) : Except StreamFault ByteStream := do
  let (_, s) ← match v with
    | ⟨.bool, b⟩ => s.writeRawData alloc [if b then 1 else 0] 1
    | ⟨.char, ch⟩ => s.writeRawData alloc [ch.toUInt8] 1
    | ⟨.uint8, ch⟩ => s.writeRawData alloc [ch] 1
    | ⟨.int16, v⟩ => s.writeRawData alloc (putInt16 v) 2
    | ⟨.uint16, v⟩ => s.writeRawData alloc (put16 v) 2
    | ⟨.int32, v⟩ => s.writeRawData alloc (putInt32 v) 4
    | ⟨.uint32, v⟩ => s.writeRawData alloc (put32 v) 4
    | ⟨.string, str⟩ => s.writeString alloc str
  return s

end ByteStream

end Zutils
