import Netfilter.Link.Socket
import Netfilter.Outcome

/-!
# Waiting for an acknowledgement

The answer to a request is the error message that carries its sequence number.
Datagrams without one are passed over, whatever else they hold. A defective
message ends the look through its datagram; it counts as the answer only if its
header says that it is the one awaited.
-/

namespace Netfilter.Acknowledgement

def answers (seq : UInt32) (h : Message.Header) : Bool := h.isError && h.seq = seq

/-- Whether the bytes start with the header of the answer to request `seq`. -/
def announces (seq : UInt32) (data : Bytes) : Bool :=
  match Message.Header.decode data with
  | .ok h => answers seq h
  | .error _ => false

def find? (seq : UInt32) (data : Bytes) : Option (Except Error Unit) :=
  match _ : Message.next data with
  | none => none
  | some (.error e, _) => if announces seq data then some (.error e) else none
  | some (.ok m, rest) =>
      if answers seq m.header then some (Message.checkAck m.payload) else find? seq rest
termination_by data.length
decreasing_by exact Message.next_shortens ‹_›

/-- What one receipt decides about request `seq`; `none` if it is passed over. -/
def decide? (seq : UInt32) : Receipt → Option (Except Error Unit)
  | .error cause => some (.error (.ofReceive cause))
  | .ok data =>
      if Bytes.hasAtLeast Message.headerSize data then find? seq data
      else some (.error (.truncated Message.headerSize data.length))

/-- The first decision about request `seq` in a list of receipts, and the receipts after it. -/
def search (patient : Bool) (room : Option Nat) (seq : UInt32) :
    List Receipt → Outcome Unit × List Receipt
  | [] => (.pending, [])
  | r :: inbox =>
      if Socket.isPassedOver patient r then search patient room seq inbox
      else
        match decide? seq (Socket.cut room r) with
        | none => search patient room seq inbox
        | some result => (.ofExcept result, inbox)

def await (seq : UInt32) (s : Socket) : Outcome Unit × Socket :=
  let (outcome, inbox) := search s.patient s.room seq s.inbox
  (outcome, { s with inbox })

end Netfilter.Acknowledgement
