import Netfilter.Proofs.Checked.Log
import Netfilter.Proofs.Queue.Delivery

/-!
# Reception under checks

A receiver with its ranges and indices checked makes the same steps as a plain
one: the free list of its pool only names slots that are there, at the start and
after everything that can happen. `Unbroken` puts together what this and the
checked readers come to: no byte string breaks reception down, whatever it is
taken for.
-/

namespace Netfilter.Checked

open Queue

def lease? (p : Pool) : Checked (Option Lease × Pool) :=
  match p.free with
  | [] => .ok (none, p)
  | i :: free =>
      match p.slots[i]? with
      | none => .error .outOfRange
      | some ⟨none, _⟩ => .ok (none, { p with free })
      | some ⟨some data, generation⟩ =>
          .ok (some ⟨i, generation, data⟩,
            { p with slots := p.slots.set i ⟨none, generation⟩, free })

theorem lease?_eq {p : Pool} (h : p.Consistent) : lease? p = .ok p.lease? := by
  unfold lease?
  rcases h.lease?_cases with ⟨hnone, hl⟩ | ⟨i, free, data, generation, hf, hslot, hl⟩
  · have hf : p.free = [] := List.length_eq_zero_iff.1 hnone
    rw [hl, hf]
  · rw [hl, hf]
    simp only [hslot]

def notice (queue : UInt16) (m : Message) (t : FieldTable) : Checked (Notice × FieldTable) :=
  if m.header.isError then do
    let answer ← checkAck m.payload
    match answer with
    | .ok () => .ok (.nothing, t)
    | .error e => .ok (.failed e, t)
  else if m.header.type ≠ Message.typeOf Subsystem.queue Operation.packet.number then
    .ok (.nothing, t)
  else
    match FamilyHeader.read m.payload with
    | .error e => .ok (.failed e, t)
    | .ok (family, _) =>
        if family.resource = queue then do
          let attributes ← sliceFrom m.payload FamilyHeader.size
          let (decoded, t) ← decodeTable t attributes
          match decoded with
          | .error e => .ok (.failed e, t)
          | .ok () =>
              match PacketInfo.ofTable t with
              | .error e => .ok (.failed e, t)
              | .ok info => .ok (.packet info (PacketInfo.payload t), t)
        else .ok (.nothing, t)

theorem notice_eq (queue : UInt16) (m : Message) (t : FieldTable) :
    notice queue m t = .ok (Notice.ofMessage queue m t) := by
  unfold notice Notice.ofMessage
  by_cases herror : m.header.isError
  · rw [if_pos herror, if_pos herror, checkAck_eq, ok_bind]
    cases Message.checkAck m.payload <;> rfl
  · rw [if_neg herror, if_neg herror]
    by_cases hother : m.header.type ≠ Message.typeOf Subsystem.queue Operation.packet.number
    · rw [if_pos hother, if_pos hother]
    · rw [if_neg hother, if_neg hother]
      cases h : FamilyHeader.read m.payload with
      | error e => rfl
      | ok opening =>
          obtain ⟨family, rest⟩ := opening
          by_cases hqueue : family.resource = queue
          · simp only [hqueue, if_true, attributes_of_read h, ok_bind, decodeTable_eq,
              Notice.ofAttributes]
            generalize t.decode rest = table
            obtain ⟨decoded, t⟩ := table
            cases decoded with
            | error e => rfl
            | ok _ =>
                dsimp only
                cases PacketInfo.ofTable t <;> rfl
          · simp only [hqueue, if_false]

def receive (r : Receiver) (l : Links) : Checked (Move × Receiver × Links) :=
  match l.onChannel r.handle.link (.error .notOpen) (·.receive) with
  | (.pending, l) => .ok (.waits, r, l)
  | (.ok buffer, l) => do
      let data ← slice buffer 0 buffer.length
      .ok (.silent, { r with phase := .reading data Table.empty }, l)
  | (.error .noBuffers, l) => .ok (.reports (.failed .noBuffers), r, l)
  | (.error e, l) => .ok (.reports (.failed e), r.endWith .failed, r.closing l)

theorem receive_eq (r : Receiver) (l : Links) : receive r l = .ok (r.receive l) := by
  unfold receive Receiver.receive
  generalize l.onChannel r.handle.link (.error .notOpen) (·.receive) = received
  obtain ⟨outcome, l⟩ := received
  cases outcome with
  | pending => rfl
  | ok data => simp only [slice_zero_eq le_rfl, ok_bind, List.take_length]
  | error e => cases e <;> rfl

def read (r : Receiver) (rest : Bytes) (table : FieldTable) : Checked (Move × Receiver) := do
  let taken ← nextMessage rest
  match taken with
  | none => .ok (.silent, { r with phase := .receiving })
  | some (.error e, _) => .ok (.reports (.failed e), { r with phase := .receiving })
  | some (.ok m, rest) => do
      let (notice, table) ← notice r.handle.queue m table
      match notice with
      | .nothing => .ok (.silent, { r with phase := .reading rest table })
      | .failed e => .ok (.reports (.failed e), { r with phase := .reading rest table })
      | .packet info payload => .ok (.silent, { r with phase := .leasing info payload rest table })

theorem read_eq (r : Receiver) (rest : Bytes) (table : FieldTable) :
    read r rest table = .ok (r.read rest table) := by
  rw [read, nextMessage_eq, ok_bind, Receiver.read]
  match Message.next rest with
  | none => rfl
  | some (.error e, left) => rfl
  | some (.ok m, left) =>
      simp only [notice_eq, ok_bind]
      generalize Notice.ofMessage r.handle.queue m table = noticed
      obtain ⟨notice, table⟩ := noticed
      cases notice <;> rfl

def handOver (r : Receiver) (info : PacketInfo) (payload rest : Bytes) (table : FieldTable) :
    Checked (Move × Receiver) := do
  let (leased, pool) ← lease? r.pool
  match leased with
  | none => .ok (.waits, { r with pool })
  | some lease =>
      let packet : Packet := { info, lease := { lease with data := payload }, handle := r.handle }
      .ok (.reports (.packet packet), { r with pool, phase := .handling rest table })

theorem handOver_eq {r : Receiver} (h : r.pool.Consistent) (info : PacketInfo)
    (payload rest : Bytes) (table : FieldTable) :
    handOver r info payload rest table = .ok (r.handOver info payload rest table) := by
  rw [handOver, lease?_eq h, ok_bind, Receiver.handOver]
  generalize r.pool.lease? = leased
  obtain ⟨lease, pool⟩ := leased
  cases lease <;> rfl

def step (r : Receiver) (l : Links) : Checked (Move × Receiver × Links) :=
  match r.phase with
  | .receiving => if r.stopRequested then .ok (.silent, r.endWith .stopped, l) else receive r l
  | .reading rest table => do
      let (move, r) ← read r rest table
      .ok (move, r, l)
  | .leasing info payload rest table =>
      if r.stopRequested then .ok (.silent, r.endWith .stopped, l)
      else do
        let (move, r) ← handOver r info payload rest table
        .ok (move, r, l)
  | .handling _ _ | .ended _ => .ok (.waits, r, l)

theorem step_eq {r : Receiver} (h : r.pool.Consistent) (l : Links) :
    step r l = .ok (r.step l) := by
  unfold step Receiver.step
  cases r.phase with
  | receiving =>
      cases r.stopRequested with
      | true => rfl
      | false => exact receive_eq r l
  | reading rest table => simp only [read_eq, ok_bind]
  | leasing info payload rest table =>
      cases r.stopRequested with
      | true => rfl
      | false => simp only [handOver_eq h, ok_bind, Bool.false_eq_true, if_false]
  | handling rest table => rfl
  | ended exit => rfl

/-- Whatever these bytes are taken for, checked readers get through them and give what plain ones
give. No more messages or attributes are met than there is room for, and one defect. -/
structure Unbroken (data : Bytes) : Prop where
  messages : items messages data = .ok (Message.walk data).met
  messages_few : (Message.walk data).met.length ≤ data.length / 16 + 1
  attributes : items attributes data = .ok (Attribute.walk data).met
  attributes_few : (Attribute.walk data).met.length ≤ data.length / 4 + 1
  table : ∀ {size : Nat} (t : Table size), decodeTable t data = .ok (t.decode data)
  checkAck : checkAck data = .ok (Message.checkAck data)
  findAck : ∀ seq, findAck? seq data = .ok (Acknowledgement.find? seq data)
  decideAck : ∀ seq, decideAck? seq (.ok data) = .ok (Acknowledgement.decide? seq (.ok data))
  text : text data = .ok (Value.text data)
  timestamp : readTimestamp data = .ok (Log.readTimestamp data)
  hardwareAddress : readHardwareAddress data = .ok (Log.readHardwareAddress data)
  entry : ∀ t, decodeEntry data t = .ok (Log.Entry.decode data t)
  entries : itemsOfDatagram data data.length = .ok (Log.itemsOfDatagram data)
  ipv4 : summary? data = unbroken? (Ipv4.Summary.ofPacket? data)
  packets : ∀ r table, read r data table = .ok (Receiver.read r data table)

theorem unbroken_of_bytes (data : Bytes) : Unbroken data where
  messages := items_messages data
  messages_few := length_met_messages_le data
  attributes := items_attributes data
  attributes_few := length_met_attributes_le data
  table t := decodeTable_eq t data
  checkAck := checkAck_eq data
  findAck seq := findAck?_eq seq data
  decideAck seq := decideAck?_eq seq (.ok data)
  text := text_eq data
  timestamp := readTimestamp_eq data
  hardwareAddress := readHardwareAddress_eq data
  entry t := decodeEntry_eq data t
  entries := itemsOfDatagram_eq data
  ipv4 := summary?_eq data
  packets r table := read_eq r data table

/-- No bytes break a reader down, no code of an acknowledgement does, and a receiver never breaks
down, whatever has arrived and whatever else has happened to it. -/
theorem nothing_breaks_down :
    (∀ data, Unbroken data) ∧
      (∀ code : Int32, magnitude code.toInt = .ok (min code.toInt.natAbs 0x7fffffff)) ∧
      ∀ handle count bufferSize links c happenings,
        let w := (Delivery.start handle count bufferSize links c).run happenings
        step w.receiver w.links = .ok (w.receiver.step w.links) := by
  refine ⟨unbroken_of_bytes, fun code => ?_, ?_⟩
  · exact magnitude_eq code.le_toInt code.toInt_lt
  · intro handle count bufferSize links c happenings
    exact step_eq (Delivery.run_consistent (Pool.consistent_ofCount count bufferSize) happenings) _

end Netfilter.Checked
