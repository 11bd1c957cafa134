import Netfilter.Log.Feed
import Netfilter.Proofs.Wire.Message
import Netfilter.Proofs.Wire.Table

/-!
# What a receipt gives a reader of log entries

`Item.ofReceipt` lists, without any state, the items of a receipt: those of its
messages in their order, and then the defect that ended the walk. An entry
consists of the last value of each attribute kind of its own message. A feed
reads the same out of whatever table it has at hand.
-/

namespace Netfilter.Log

abbrev Item := Except Error Entry

def readField {α : Type} (value : Field → Option Bytes) (f : Field)
    (read : Bytes → Except Error α) : Except Error (Option α) :=
  match value f with
  | none => .ok none
  | some bytes => (read bytes).map some

def Entry.ofValues (family : FamilyHeader) (value : Field → Option Bytes) : Item := do
  let (protocol, hook) ← match value .packetHeader with
    | some bytes => readHeader bytes
    | none => .error (.invalidMessage .logEntryWithoutHeader)
  let mark ← readField value .mark Value.word32
  let timestamp ← readField value .timestamp readTimestamp
  let inDevice ← readField value .inDevice Value.word32
  let outDevice ← readField value .outDevice Value.word32
  let physicalInDevice ← readField value .physicalInDevice Value.word32
  let physicalOutDevice ← readField value .physicalOutDevice Value.word32
  let hardwareAddress ← readField value .hardwareAddress readHardwareAddress
  let userId ← readField value .userId Value.word32
  let groupId ← readField value .groupId Value.word32
  let sequence ← readField value .sequence Value.word32
  let globalSequence ← readField value .globalSequence Value.word32
  let rulePrefix ← readField value .rulePrefix Value.text
  return {
    group := family.resource, family := family.family, protocol, hook, mark, timestamp, inDevice
    outDevice, physicalInDevice, physicalOutDevice, hardwareAddress, userId, groupId, sequence
    globalSequence, rulePrefix, payload := (value .payload).getD [] }

def Entry.ofPayload (data : Bytes) : Item :=
  match FamilyHeader.read data with
  | .error e => .error e
  | .ok (family, attributes) =>
      match (Attribute.walk attributes).fault with
      | some e => .error e
      | none => Entry.ofValues family fun f =>
          Attribute.lastValue? (Attribute.walk attributes).items f.number

namespace Item

def ofMessage? (m : Message) : Option Item :=
  if m.header.type = Message.errorType then
    match Message.errorCode m.payload with
    | .error e => some (.error e)
    | .ok code => if code = 0 then none else some (.error (.ofCode code))
  else if m.header.type = Message.typeOf Subsystem.log Operation.packet.number then
    some (Entry.ofPayload m.payload)
  else none

def ofDatagram (data : Bytes) : List Item :=
  (Message.walk data).items.filterMap ofMessage? ++ ((Message.walk data).fault.map .error).toList

def ofReceipt : Receipt → List Item
  | .error cause => [.error (.ofReceive cause)]
  | .ok data => ofDatagram data

end Item

theorem Entry.ofTable_eq (family : FamilyHeader) (t : FieldTable) :
    Entry.ofTable family t = Entry.ofValues family fun f => t.get? f.number := rfl

/-- An entry does not depend on what the table held before. -/
theorem Entry.decode_fst (data : Bytes) (t : FieldTable) :
    (Entry.decode data t).1 = Entry.ofPayload data := by
  unfold Entry.decode Entry.ofPayload
  cases FamilyHeader.read data with
  | error e => rfl
  | ok read =>
      obtain ⟨family, attributes⟩ := read
      dsimp only
      cases hf : (Attribute.walk attributes).fault with
      | some e => rw [t.decode_of_fault_some hf]
      | none =>
          have hvalue : (fun f : Field => (t.decode attributes).2.get? f.number) =
              fun f => Attribute.lastValue? (Attribute.walk attributes).items f.number := by
            funext f
            exact t.get?_decode hf f.number_lt_count
          rw [← hvalue, ← Entry.ofTable_eq, t.decode_of_fault_none hf]

theorem item?_fst (m : Message) (t : FieldTable) : (item? m t).1 = Item.ofMessage? m := by
  unfold item? Item.ofMessage?
  by_cases herr : m.header.type = Message.errorType
  · have hyes : m.header.isError = true := by simpa [Message.Header.isError] using herr
    rw [if_pos hyes, if_pos herr, Message.checkAck]
    cases Message.errorCode m.payload with
    | error e => rfl
    | ok code => by_cases hz : code = 0 <;> simp only [hz, if_true, if_false]
  · have hno : ¬ m.header.isError = true := by simpa [Message.Header.isError] using herr
    rw [if_neg hno, if_neg herr]
    by_cases hpacket : m.header.type = Message.typeOf Subsystem.log Operation.packet.number
    · rw [if_neg (not_not.2 hpacket), if_pos hpacket, ← Entry.decode_fst m.payload t]
    · rw [if_pos hpacket, if_neg hpacket]

theorem itemsOf_eq_filterMap (messages : List Message) (t : FieldTable) :
    itemsOf messages t = messages.filterMap Item.ofMessage? := by
  induction messages generalizing t with
  | nil => rfl
  | cons m messages ih =>
      rw [List.filterMap_cons, ← item?_fst m t, itemsOf]
      rcases item? m t with ⟨item, t'⟩
      dsimp only
      rw [ih]
      cases item <;> rfl

theorem itemsOfDatagram_eq (data : Bytes) : itemsOfDatagram data = Item.ofDatagram data := by
  rw [itemsOfDatagram, itemsOf_eq_filterMap]
  rfl

end Netfilter.Log
