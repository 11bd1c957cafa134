import Netfilter.Wire.Message
import Netfilter.Wire.Table
import Netfilter.Wire.Value
import Netfilter.Queue.Numbers

/-!
# Queued packets as the kernel describes them

A notification about a queued packet carries a packet header and optional
numbers, each in its own attribute. `PacketInfo.ofTable` reads them in a fixed
order and reports the first one that is defective.
-/

namespace Netfilter.Queue

structure PacketHeader where
  id : UInt32
  protocol : UInt16
  hook : UInt8
  deriving DecidableEq, Repr

def PacketHeader.read (data : Bytes) : Except Error (PacketHeader × Bytes) :=
  let found := do
    let (id, rest) ← Bytes.readBig? 4 data
    let (protocol, rest) ← Bytes.readBig? 2 rest
    let (hook, rest) ← Bytes.readBig? 1 rest
    some (⟨UInt32.ofNat id, UInt16.ofNat protocol, UInt8.ofNat hook⟩, rest)
  match found with
  | some result => .ok result
  | none => .error (.unreadable (.cutShort .packetHeader data.length))

abbrev FieldTable := Table Field.count

structure PacketInfo where
  id : UInt32
  protocol : UInt16
  hook : UInt8
  mark : Option UInt32
  inDevice : Option UInt32
  outDevice : Option UInt32
  physicalInDevice : Option UInt32
  physicalOutDevice : Option UInt32
  /-- The length of the packet before it was cut to the copy range. -/
  capturedLength : Option UInt32
  userId : Option UInt32
  groupId : Option UInt32
  deriving DecidableEq, Repr

namespace PacketInfo

def number? (t : FieldTable) (f : Field) : Except Error (Option UInt32) :=
  match t.get? f.number with
  | none => .ok none
  | some value => (Value.word32 value).map some

def ofTable (t : FieldTable) : Except Error PacketInfo := do
  let header ← match t.get? Field.packetHeader.number with
    | some value => PacketHeader.read value
    | none => .error (.invalidMessage .queuedPacketWithoutHeader)
  return {
    id := header.1.id
    protocol := header.1.protocol
    hook := header.1.hook
    mark := ← number? t .mark
    inDevice := ← number? t .inDevice
    outDevice := ← number? t .outDevice
    physicalInDevice := ← number? t .physicalInDevice
    physicalOutDevice := ← number? t .physicalOutDevice
    capturedLength := ← number? t .capturedLength
    userId := ← number? t .userId
    groupId := ← number? t .groupId }

/-- The packet itself: empty if the notification carries none. -/
def payload (t : FieldTable) : Bytes := (t.get? Field.payload.number).getD []

end PacketInfo

end Netfilter.Queue
