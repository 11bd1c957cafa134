import Netfilter.Bytes

/-!
# IPv4 packets at a glance

The addresses, the protocol, the length and, for the first fragment of a TCP or
UDP packet, the ports, read from the front of a packet.
-/

namespace Netfilter.Ipv4

structure Address where
  number : UInt32
  deriving DecidableEq, Repr

def Address.text (a : Address) : String :=
  String.intercalate "." ((Bytes.big 4 a.number.toNat).map fun b => toString b.toNat)

structure Summary where
  source : Address
  destination : Address
  protocol : UInt8
  length : UInt16
  sourcePort : Option UInt16
  destinationPort : Option UInt16
  deriving DecidableEq, Repr

def tcp : Nat := 6

def udp : Nat := 17

def ports (headerSize : Nat) (packet : Bytes) : Option (UInt16 × UInt16) := do
  let (source, rest) ← Bytes.readBig? 2 (packet.drop headerSize)
  let (destination, _) ← Bytes.readBig? 2 rest
  return (UInt16.ofNat source, UInt16.ofNat destination)

/-- Reads the header field by field; `none` if it is no IPv4 header. Only a first fragment of TCP
or UDP has ports. -/
def Summary.ofPacket? (packet : Bytes) : Option Summary := do
  let (versionAndWords, rest) ← Bytes.readBig? 1 packet
  let words := versionAndWords % 16
  if versionAndWords / 16 ≠ 4 || words < 5 then none
  let (_, rest) ← Bytes.readBig? 1 rest
  let (length, rest) ← Bytes.readBig? 2 rest
  let (_, rest) ← Bytes.readBig? 2 rest
  let (fragment, rest) ← Bytes.readBig? 2 rest
  let (_, rest) ← Bytes.readBig? 1 rest
  let (protocol, rest) ← Bytes.readBig? 1 rest
  let (_, rest) ← Bytes.readBig? 2 rest
  let (source, rest) ← Bytes.readBig? 4 rest
  let (destination, _) ← Bytes.readBig? 4 rest
  let first := fragment % 8192 = 0 && (protocol = tcp || protocol = udp)
  let found := if first then ports (4 * words) packet else none
  return {
    source := ⟨UInt32.ofNat source⟩
    destination := ⟨UInt32.ofNat destination⟩
    protocol := UInt8.ofNat protocol
    length := UInt16.ofNat length
    sourcePort := found.map (·.1)
    destinationPort := found.map (·.2) }

end Netfilter.Ipv4
