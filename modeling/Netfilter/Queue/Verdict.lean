import Netfilter.Link.Links
import Netfilter.Queue.Disposition
import Netfilter.Queue.Numbers
import Netfilter.Wire.FamilyHeader
import Netfilter.Wire.Frame

/-!
# Verdicts

A verdict is written from pieces: the headers and the verdict itself, and, if
the packet is sent back, the header of the payload attribute and the padded
payload. Its length covers all pieces. A payload is padded in place and cut
back afterwards.
-/

namespace Netfilter.Queue

structure Verdict where
  packet : UInt32
  disposition : Disposition
  mark : Option UInt32 := none
  deriving DecidableEq, Repr

namespace Verdict

def maxPayload : Nat := Attribute.maxValue

/-- The size of the frame for the first piece: that of the piece of a verdict with a mark. -/
def maxHeaderSize : Nat :=
  Message.headerSize + FamilyHeader.size + Attribute.paddedSize 8 + Attribute.paddedSize 4

def decision (v : Verdict) : Bytes :=
  Bytes.big 4 v.disposition.number.toNat ++ Bytes.big 4 v.packet.toNat

/-- The first piece, in a frame of fixed size: the header of a message with a payload of
`payloadSize` bytes, for which space is left until the length is known, and the verdict. -/
def frame (v : Verdict) (queue : UInt16) (payloadSize : Nat) (seq : UInt32) :
    Except Error Frame := do
  let opened := (Frame.reserve maxHeaderSize Message.headerSize).push
    (FamilyHeader.encode { family := FamilyHeader.unspecified, resource := queue })
  let decided ← opened.pushAttribute Field.verdictHeader.rawType v.decision
  let marked ← match v.mark with
    | none => pure decided
    | some m => decided.pushAttribute Field.mark.rawType (Bytes.big 4 m.toNat)
  let space := if payloadSize = 0 then 0 else Attribute.paddedSize payloadSize
  return marked.write 0 (Message.Header.encode {
    length := UInt32.ofNat (marked.used + space)
    type := Message.typeOf Subsystem.queue Operation.verdict.number
    flags := Message.request
    seq
    port := 0 })

/-- The pieces of a verdict. An empty payload is none. -/
def pieces (v : Verdict) (queue : UInt16) (payload : Bytes) (seq : UInt32) :
    Except Error (List Bytes) := do
  let n := payload.length
  if n = 0 then
    let frame ← v.frame queue 0 seq
    return [frame.filled]
  else if maxPayload < n then .error (.invalidAttribute (.oversizedPacket n))
  else
    let frame ← v.frame queue n seq
    let payloadHeader ← Attribute.Header.forValue Field.payload.rawType n
    return [frame.filled, payloadHeader.encode, Bytes.padded payload]

/-- Takes a number for a verdict and writes it. Gives the payload back as it is afterwards. -/
def send (v : Verdict) (queue : UInt16) (payload : Bytes) (c : Channel) :
    (Except Error Unit × Bytes) × Channel :=
  let (seq, c) := c.takeSeq
  match v.pieces queue payload seq with
  | .error e => ((.error e, payload), c)
  | .ok pieces =>
      let (result, c) := c.gather pieces
      ((result.map fun _ => (), (Bytes.padded payload).take payload.length), c)

end Verdict

/-- Where the verdicts of a queue are sent: a channel, by its number, and the queue. -/
structure VerdictHandle where
  link : Nat
  queue : UInt16
  deriving DecidableEq, Repr

namespace VerdictHandle

def isOpen (h : VerdictHandle) (l : Links) : Bool := l.channels[h.link]?.any (·.isOpen)

def describe (h : VerdictHandle) (l : Links) : String :=
  "VerdictHandle \x7b queue_num: " ++ toString h.queue ++ ", open: " ++ toString (h.isOpen l)
    ++ " \x7d"

def send (h : VerdictHandle) (v : Verdict) (payload : Bytes) (l : Links) :
    (Except Error Unit × Bytes) × Links :=
  l.onChannel h.link (.error .notOpen, payload) (v.send h.queue payload)

end VerdictHandle

end Netfilter.Queue
