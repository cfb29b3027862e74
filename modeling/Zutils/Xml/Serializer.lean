import Zutils.Base.CString

/-!
# Writing XML (`base2/xml/xml_serializer.cc`, `base2/xml/xml_serializer.h`)

`XMLSerializer` writes tags, attributes and text to a stream, one call after the other. The `>` of a start tag is written
by the next call that is not for an attribute. An attribute anywhere else than in a start tag is an error, after which
nothing is written.

The stream does not fail. What is written is kept apart here by what it is: the line breaks and the indentation that the
serializer puts in, and everything else. A call that uses the last element of an empty tag stack is a fault.
-/

namespace Zutils.Xml

/-- Something that is written. -/
inductive Piece where
  /-- A line break or indentation. -/
  | layout (bytes : List UInt8)
  | content (bytes : List UInt8)
  deriving DecidableEq, Repr

/-- `d_tagStack.back()` of an empty stack. -/
inductive SerializerFault where
  | emptyStack
  deriving DecidableEq, Repr

/-- What a stream makes of a `float`: digits, signs, a point, an exponent, `inf` or `nan`. -/
structure PrintedFloat where
  text : List UInt8
  printed : ∀ c ∈ text, c ∈
    ascii ['0', '1', '2', '3', '4', '5', '6', '7', '8', '9', '+', '-', '.', 'e', 'i', 'n', 'f', 'a']

/-- `class XMLSerializer`. -/
structure XMLSerializer where
  error : Bool
  tagCount : UInt32
  depth : UInt64
  indentSpace : UInt64
  needClose : Bool
  lastIsText : Bool
  /-- What has been written. -/
  stream : List Piece
  /-- `d_tagStack`, the last element first. -/
  tagStack : List (List UInt8)

/-- What is put for a character of a text. -/
def entityInText (c : UInt8) : List UInt8 :=
  if c = 0x3C then ascii ['&', 'l', 't', ';']
  else if c = 0x3E then ascii ['&', 'g', 't', ';']
  else if c = 0x26 then ascii ['&', 'a', 'm', 'p', ';']
  else if c = 0x27 then ascii ['&', 'a', 'p', 'o', 's', ';']
  else if c = 0x22 then ascii ['&', 'q', 'u', 'o', 't', ';']
  else [c]

/-- What is put for a character of an attribute: for a line feed, a backslash and an `n`. -/
def entityInAttribute (c : UInt8) : List UInt8 := if c = 0x0A then ascii ['\\', 'n'] else entityInText c

def convertEntityInText (text : List UInt8) : List UInt8 := text.flatMap entityInText

def convertEntityInAttribute (attributeValue : List UInt8) : List UInt8 := attributeValue.flatMap entityInAttribute

/-- `s.c_str()`, as it is written to a stream. -/
def cStr (s : List UInt8) : List UInt8 := (CString.ofString s).bytes

namespace XMLSerializer

section

variable (s : XMLSerializer)

/-- `d_stream << bytes`. -/
def put (bytes : List UInt8) : XMLSerializer := { s with stream := s.stream ++ [.content bytes] }

/-- `d_stream << std::endl`. -/
def endl : XMLSerializer := { s with stream := s.stream ++ [.layout [0x0A]] }

/-- `indentLine`. -/
def indentLine : XMLSerializer :=
  { s with stream := s.stream ++ [.layout (List.replicate (s.depth * s.indentSpace).toNat 0x20)] }

/-- A line break and the indentation, unless text comes before. -/
def newLine : XMLSerializer := if s.lastIsText then s else s.endl.indentLine

/-- The `>` of a start tag. -/
def closeStart : XMLSerializer := if s.needClose then s.put (ascii ['>']) else s

/-- `<?xml version="1.0" encoding="UTF-8"?>`, between its first and its last two characters. -/
def declaration : List UInt8 :=
  ascii ['x', 'm', 'l', ' ', 'v', 'e', 'r', 's', 'i', 'o', 'n', '=', '"', '1', '.', '0', '"', ' ',
    'e', 'n', 'c', 'o', 'd', 'i', 'n', 'g', '=', '"', 'U', 'T', 'F', '-', '8', '"']

/-- `XMLSerializer(out, indentSpace)`, which leaves `d_tagCount` as it is. -/
def new (tagCount : UInt32) (indentSpace : UInt64) : XMLSerializer where
  error := false
  tagCount := tagCount
  depth := 0
  indentSpace := indentSpace
  needClose := false
  lastIsText := false
  stream := [.content (ascii ['<', '?'] ++ declaration ++ ascii ['?', '>']), .layout [0x0A]]
  tagStack := []

/-- `openTag`. -/
def openTag (name : List UInt8) : XMLSerializer :=
  if s.error then s
  else
    let s := { s with tagCount := s.tagCount + 1 }
    let s := s.closeStart.newLine.put (ascii ['<'] ++ cStr name ++ ascii [' '])
    { s with tagStack := name :: s.tagStack, depth := s.depth + 1, needClose := true, lastIsText := false }

/-- What `closeTag` writes. -/
def writeEnd (back : List UInt8) : XMLSerializer :=
  if s.needClose then s.put (ascii ['/', '>']) else s.newLine.put (ascii ['<', '/'] ++ cStr back ++ ascii ['>'])

/-- `closeTag`. The last tag is read before `d_error` is looked at. -/
def closeTag : Except SerializerFault XMLSerializer :=
  match s.tagStack with
  | [] => .error .emptyStack
  | back :: tagStack =>
    if s.error then .ok s
    else
      let s := { s with depth := s.depth - 1 }
      .ok { s.writeEnd back with lastIsText := false, needClose := false, tagStack }

/-- What `attribute` and the like have in common; `value` is what is written. -/
def writeAttribute (name value : List UInt8) : XMLSerializer :=
  let s := if s.needClose then s else { s with error := true }
  if s.error then s
  else { s.put (cStr name ++ ascii ['=', '"'] ++ value ++ ascii ['"', ' ']) with lastIsText := false }

/-- `attribute`. -/
def attributeString (name value : List UInt8) : XMLSerializer :=
  s.writeAttribute name (cStr (convertEntityInAttribute value))

def attributeInt (name : List UInt8) (value : ℤ) : XMLSerializer := s.writeAttribute name (decimalInt value)

def attributeInt64 (name : List UInt8) (value : ℤ) : XMLSerializer := s.writeAttribute name (decimalInt value)

def attributeFloat (name : List UInt8) (value : PrintedFloat) : XMLSerializer := s.writeAttribute name value.text

def attributeBoolAsTrueFalse (name : List UInt8) (value : Bool) : XMLSerializer :=
  s.writeAttribute name (ascii (if value then ['t', 'r', 'u', 'e'] else ['f', 'a', 'l', 's', 'e']))

def attributeBoolAsOneZero (name : List UInt8) (value : Bool) : XMLSerializer :=
  s.writeAttribute name (ascii (if value then ['1'] else ['0']))

/-- `text`. -/
def text (text : List UInt8) : XMLSerializer :=
  if s.error then s
  else { s.closeStart.put (cStr (convertEntityInText text)) with needClose := false, lastIsText := true }

end

end XMLSerializer

/-- The values of attributes. -/
inductive AttributeValue where
  | string (value : List UInt8)
  | int (value : ℤ)
  | int64 (value : ℤ)
  | float (value : PrintedFloat)
  | boolAsTrueFalse (value : Bool)
  | boolAsOneZero (value : Bool)

/-- A call of the serializer. -/
inductive XMLCall where
  | openTag (name : List UInt8)
  | closeTag
  | attr (name : List UInt8) (value : AttributeValue)
  | text (text : List UInt8)

namespace XMLSerializer

section

variable (s : XMLSerializer)

/-- The overload for the value. -/
def attributeOf (name : List UInt8) : AttributeValue → XMLSerializer
  | .string value => s.attributeString name value
  | .int value => s.attributeInt name value
  | .int64 value => s.attributeInt64 name value
  | .float value => s.attributeFloat name value
  | .boolAsTrueFalse value => s.attributeBoolAsTrueFalse name value
  | .boolAsOneZero value => s.attributeBoolAsOneZero name value

def call : XMLCall → Except SerializerFault XMLSerializer
  | .openTag name => .ok (s.openTag name)
  | .closeTag => s.closeTag
  | .attr name value => .ok (s.attributeOf name value)
  | .text text => .ok (s.text text)

/-- What has been written, without what the serializer puts in. -/
def content : List UInt8 :=
  s.stream.flatMap fun
    | .layout _ => []
    | .content bytes => bytes

end

/-- A serializer after some calls. -/
def run (tagCount : UInt32) (indentSpace : UInt64) (calls : List XMLCall) : Except SerializerFault XMLSerializer :=
  calls.foldlM call (new tagCount indentSpace)

end XMLSerializer

end Zutils.Xml
