import Netfilter.Proofs.Wire.Message
import Netfilter.Proofs.Wire.Table
import Netfilter.Queue.Delivery

/-!
# What a receipt gives rise to

`Report.ofReceipt` lists, without any state, what a receiver has to report of a
receipt: the reports of its messages in their order, and then the defect that
ended the walk. The packets carry the last value of each attribute kind of their
own message. A receiver reads the same out of whatever table it has at hand.
-/

namespace Netfilter.Queue

/-- What a receiver lets others know: a failure, or a packet with its contents and the place its
verdict goes to. -/
inductive Report
  | failed (cause : Error)
  | packet (info : PacketInfo) (payload : Bytes) (handle : VerdictHandle)
  deriving DecidableEq, Repr

def Event.report : Event → Report
  | .failed cause => .failed cause
  | .packet p => .packet p.info p.payload p.handle

def PacketInfo.ofValues (value : Field → Option Bytes) : Except Error PacketInfo := do
  let number? (f : Field) : Except Error (Option UInt32) :=
    match value f with
    | none => .ok none
    | some bytes => (Value.word32 bytes).map some
  let header ← match value .packetHeader with
    | some bytes => PacketHeader.read bytes
    | none => .error (.invalidMessage .queuedPacketWithoutHeader)
  return {
    id := header.1.id
    protocol := header.1.protocol
    hook := header.1.hook
    mark := ← number? .mark
    inDevice := ← number? .inDevice
    outDevice := ← number? .outDevice
    physicalInDevice := ← number? .physicalInDevice
    physicalOutDevice := ← number? .physicalOutDevice
    capturedLength := ← number? .capturedLength
    userId := ← number? .userId
    groupId := ← number? .groupId }

namespace Report

def ofValues (handle : VerdictHandle) (value : Field → Option Bytes) : Report :=
  match PacketInfo.ofValues value with
  | .error e => .failed e
  | .ok info => .packet info ((value .payload).getD []) handle

def ofAttributes (handle : VerdictHandle) (data : Bytes) : Report :=
  match (Attribute.walk data).fault with
  | some e => .failed e
  | none =>
      ofValues handle fun f => Attribute.lastValue? (Attribute.walk data).items f.number

def ofMessage? (handle : VerdictHandle) (m : Message) : Option Report :=
  if m.header.type = Message.errorType then
    match Message.errorCode m.payload with
    | .error e => some (.failed e)
    | .ok code => if code = 0 then none else some (.failed (.ofCode code))
  else if m.header.type = Message.typeOf Subsystem.queue Operation.packet.number then
    match FamilyHeader.read m.payload with
    | .error e => some (.failed e)
    | .ok (family, attributes) =>
        if family.resource = handle.queue then some (ofAttributes handle attributes) else none
  else none

def ofDatagram (handle : VerdictHandle) (data : Bytes) : List Report :=
  (Message.walk data).items.filterMap (ofMessage? handle)
    ++ ((Message.walk data).fault.map failed).toList

def ofReceipt (handle : VerdictHandle) : Receipt → List Report
  | .error cause => [.failed (.ofReceive cause)]
  | .ok data => ofDatagram handle data

end Report

def Notice.report? (handle : VerdictHandle) : Notice → Option Report
  | .nothing => none
  | .failed cause => some (.failed cause)
  | .packet info payload => some (.packet info payload handle)

theorem PacketInfo.ofTable_eq (t : FieldTable) :
    PacketInfo.ofTable t = PacketInfo.ofValues fun f => t.get? f.number := rfl

theorem Notice.report?_ofAttributes (handle : VerdictHandle) (data : Bytes) (t : FieldTable) :
    (Notice.ofAttributes data t).1.report? handle = some (Report.ofAttributes handle data) := by
  unfold Notice.ofAttributes Report.ofAttributes
  cases hf : (Attribute.walk data).fault with
  | some e =>
      rw [t.decode_of_fault_some hf]
      rfl
  | none =>
      have hvalue : (fun f : Field => (t.decode data).2.get? f.number) =
          fun f => Attribute.lastValue? (Attribute.walk data).items f.number := by
        funext f
        exact t.get?_decode hf f.number_lt_count
      rw [← hvalue]
      rw [t.decode_of_fault_none hf] at hvalue ⊢
      simp only [PacketInfo.ofTable_eq, Report.ofValues, PacketInfo.payload]
      cases PacketInfo.ofValues _ <;> rfl

/-- What a receiver makes of a message does not depend on what its table held before. -/
theorem Notice.report?_ofMessage (handle : VerdictHandle) (m : Message) (t : FieldTable) :
    (Notice.ofMessage handle.queue m t).1.report? handle = Report.ofMessage? handle m := by
  unfold Notice.ofMessage Report.ofMessage?
  by_cases herr : m.header.type = Message.errorType
  · have hyes : m.header.isError = true := by simpa [Message.Header.isError] using herr
    rw [if_pos hyes, if_pos herr, Message.checkAck]
    cases Message.errorCode m.payload with
    | error e => rfl
    | ok code => by_cases hz : code = 0 <;> simp only [hz, if_true, if_false] <;> rfl
  · have hno : ¬ m.header.isError = true := by simpa [Message.Header.isError] using herr
    rw [if_neg hno, if_neg herr]
    by_cases hpacket : m.header.type = Message.typeOf Subsystem.queue Operation.packet.number
    · rw [if_neg (not_not.2 hpacket), if_pos hpacket]
      cases FamilyHeader.read m.payload with
      | error e => rfl
      | ok read =>
          obtain ⟨family, attributes⟩ := read
          by_cases hq : family.resource = handle.queue
          · simp only [hq, if_true]
            exact report?_ofAttributes handle attributes t
          · simp only [hq, if_false]
            rfl
    · rw [if_pos hpacket, if_neg hpacket]
      rfl

namespace Report

variable {handle : VerdictHandle} {data rest : Bytes}

theorem ofDatagram_of_next_none (h : Message.next data = none) : ofDatagram handle data = [] := by
  rw [ofDatagram, Message.walk_of_next_none h]
  rfl

theorem ofDatagram_of_next_error {e : Error} (h : Message.next data = some (.error e, rest)) :
    ofDatagram handle data = [.failed e] := by
  rw [ofDatagram, Message.walk_of_next_error h]
  rfl

theorem ofDatagram_of_next_ok {m : Message} (h : Message.next data = some (.ok m, rest)) :
    ofDatagram handle data = (ofMessage? handle m).toList ++ ofDatagram handle rest := by
  simp only [ofDatagram, Message.walk_of_next_ok h, List.filterMap_cons]
  cases ofMessage? handle m <;> rfl

end Report

end Netfilter.Queue
