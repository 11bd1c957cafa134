import Netfilter.Log.Ipv4
import Netfilter.Log.Numbers
import Netfilter.Wire.FamilyHeader
import Netfilter.Wire.Table
import Netfilter.Wire.Value

/-!
# Log entries

A log message describes one packet. `Entry.decode` reads it attribute by
attribute, in a fixed order, and reports the first one that is defective;
`Entry.ofDatagram` reads all messages of a datagram.
-/

namespace Netfilter.Log

structure Timestamp where
  seconds : UInt64
  nanoseconds : UInt32
  deriving DecidableEq, Repr

structure Entry where
  group : UInt16
  family : UInt8
  protocol : UInt16
  hook : UInt8
  mark : Option UInt32
  timestamp : Option Timestamp
  inDevice : Option UInt32
  outDevice : Option UInt32
  physicalInDevice : Option UInt32
  physicalOutDevice : Option UInt32
  hardwareAddress : Option Bytes
  userId : Option UInt32
  groupId : Option UInt32
  /-- The number of the entry within its group. -/
  sequence : Option UInt32
  /-- The number of the entry among all groups. -/
  globalSequence : Option UInt32
  rulePrefix : Option String
  payload : Bytes
  deriving DecidableEq, Repr

abbrev FieldTable := Table Field.count

def readHeader (value : Bytes) : Except Error (UInt16 × UInt8) :=
  match value with
  | p₁ :: p₀ :: hook :: _ => .ok (UInt16.ofNat (Bytes.ofBig [p₁, p₀]), hook)
  | short => .error (.unreadable (.cutShort .logHeader short.length))

/-- Seconds and microseconds at the front of a value. Whole seconds among the microseconds are
ignored. -/
def readTimestamp (value : Bytes) : Except Error Timestamp :=
  let found := do
    let (seconds, rest) ← Bytes.readBig? 8 value
    let (micros, _) ← Bytes.readBig? 8 rest
    some ⟨UInt64.ofNat seconds, UInt32.ofNat (micros % 1000000 * 1000)⟩
  match found with
  | some t => .ok t
  | none => .error (.unreadable (.cutShort .timestamp value.length))

/-- A hardware address: its length, two bytes of padding, and space for eight bytes. -/
def readHardwareAddress (value : Bytes) : Except Error Bytes :=
  let found := do
    let (length, rest) ← Bytes.readBig? 2 value
    let (_, rest) ← Bytes.readBig? 2 rest
    let (space, _) ← Bytes.split? 8 rest
    some (space.take length)
  match found with
  | some address => .ok address
  | none => .error (.unreadable (.cutShort .hardwareAddress value.length))

def field? {α : Type} (t : FieldTable) (f : Field) (read : Bytes → Except Error α) :
    Except Error (Option α) :=
  match t.get? f.number with
  | none => .ok none
  | some value => (read value).map some

def Entry.ofTable (family : FamilyHeader) (t : FieldTable) : Except Error Entry := do
  let (protocol, hook) ← match t.get? Field.packetHeader.number with
    | some value => readHeader value
    | none => .error (.invalidMessage .logEntryWithoutHeader)
  let mark ← field? t .mark Value.word32
  let timestamp ← field? t .timestamp readTimestamp
  let inDevice ← field? t .inDevice Value.word32
  let outDevice ← field? t .outDevice Value.word32
  let physicalInDevice ← field? t .physicalInDevice Value.word32
  let physicalOutDevice ← field? t .physicalOutDevice Value.word32
  let hardwareAddress ← field? t .hardwareAddress readHardwareAddress
  let userId ← field? t .userId Value.word32
  let groupId ← field? t .groupId Value.word32
  let sequence ← field? t .sequence Value.word32
  let globalSequence ← field? t .globalSequence Value.word32
  let rulePrefix ← field? t .rulePrefix Value.text
  return {
    group := family.resource, family := family.family, protocol, hook, mark, timestamp, inDevice
    outDevice, physicalInDevice, physicalOutDevice, hardwareAddress, userId, groupId, sequence
    globalSequence, rulePrefix, payload := (t.get? Field.payload.number).getD [] }

/-- Reads the payload of a log message. The table is used again and again. -/
def Entry.decode (data : Bytes) (t : FieldTable) : Except Error Entry × FieldTable :=
  match FamilyHeader.read data with
  | .error e => (.error e, t)
  | .ok (family, attributes) =>
      match t.decode attributes with
      | (.error e, t) => (.error e, t)
      | (.ok (), t) => (Entry.ofTable family t, t)

def Entry.ipv4? (e : Entry) : Option Ipv4.Summary := Ipv4.Summary.ofPacket? e.payload

/-- What a message gives a reader of log entries: an entry or the reason why it cannot be read, a
refusal, or nothing. -/
def item? (m : Message) (t : FieldTable) : Option (Except Error Entry) × FieldTable :=
  if m.header.isError then
    match Message.checkAck m.payload with
    | .ok () => (none, t)
    | .error e => (some (.error e), t)
  else if m.header.type ≠ Message.typeOf Subsystem.log Operation.packet.number then (none, t)
  else
    let (entry, t) := Entry.decode m.payload t
    (some entry, t)

def itemsOf : List Message → FieldTable → List (Except Error Entry)
  | [], _ => []
  | m :: messages, t =>
      let (item, t) := item? m t
      item.toList ++ itemsOf messages t

/-- What a datagram gives; a defective message ends it. -/
def itemsOfDatagram (data : Bytes) : List (Except Error Entry) :=
  let walk := Message.walk data
  itemsOf walk.items Table.empty ++ (walk.fault.map Except.error).toList

end Netfilter.Log
