import Netfilter.Text.Utf8
import Netfilter.Wire.FamilyHeader

/-!
# Messages under construction

A draft holds the header fields of a message and the bytes after its header.
Everything appended is padded to a multiple of four. A nest is opened with a
header whose length is still zero; closing it writes the distance from its
header to the end of the draft. `Draft.finish` gives the message its length.
-/

namespace Netfilter

structure Draft where
  type : UInt16
  flags : UInt16
  seq : UInt32 := 0
  port : UInt32 := 0
  /-- The bytes after the header. -/
  body : Bytes := []
  deriving DecidableEq, Repr

namespace Draft

def netfilter (subsystem operation : UInt8) (flags : UInt16) (family : UInt8)
    (resource : UInt16) : Draft :=
  { type := Message.typeOf subsystem operation
    flags
    body := FamilyHeader.encode { family, resource } }

def size (d : Draft) : Nat := Message.headerSize + d.body.length

def isBare (d : Draft) : Bool := d.body.isEmpty

def withLength (d : Draft) (length : Nat) : Bytes :=
  Message.Header.encode ⟨UInt32.ofNat length, d.type, d.flags, d.seq, d.port⟩ ++ d.body

/-- The draft as it stands, with the length of a message without payload. -/
def bytes (d : Draft) : Bytes := d.withLength Message.headerSize

def finish (d : Draft) : Bytes := d.withLength d.size

def append (d : Draft) (data : Bytes) : Draft := { d with body := Bytes.padded (d.body ++ data) }

/-- Appends an attribute of any length its header can describe. -/
def add (d : Draft) (rawType : UInt16) (value : Bytes) : Except Error Draft :=
  (Attribute.Header.forValue rawType value.length).map fun h => d.append (h.encode ++ value)

def short (d : Draft) (rawType : UInt16) (value : Bytes) : Draft :=
  d.append (Attribute.Header.encode
    ⟨UInt16.ofNat (Attribute.headerSize + value.length), rawType⟩ ++ value)

def word8 (d : Draft) (rawType : UInt16) (value : UInt8) : Draft := d.short rawType [value]

def word16 (d : Draft) (rawType : UInt16) (value : UInt16) : Draft :=
  d.short rawType (Bytes.big 2 value.toNat)

def word32 (d : Draft) (rawType : UInt16) (value : UInt32) : Draft :=
  d.short rawType (Bytes.big 4 value.toNat)

def text (d : Draft) (rawType : UInt16) (value : String) : Except Error Draft :=
  d.add rawType (Utf8.encode value ++ [0])

structure Nest where
  offset : Nat
  deriving DecidableEq, Repr

def openNest (d : Draft) (rawType : UInt16) : Draft × Nest :=
  let header : Attribute.Header := ⟨0, rawType ||| UInt16.ofNat Attribute.nestedBit⟩
  ({ d with body := d.body ++ header.encode }, ⟨d.body.length⟩)

def closeNest (d : Draft) (nest : Nest) : Except Error Draft :=
  let length := d.body.length - nest.offset
  if length < 65536 then
    let patched := d.body.take nest.offset ++ Bytes.little 2 length ++ d.body.drop (nest.offset + 2)
    .ok { d with body := Bytes.padded patched }
  else .error (.invalidAttribute (.oversizedNest length))

def addFlags (d : Draft) (flags : UInt16) : Draft := { d with flags := d.flags ||| flags }

end Draft

end Netfilter
