import Netfilter.Log.Entry
import Netfilter.Proofs.Checked.Wire

/-!
# Log entries under checks

The reader of log entries with its sums, products and ranges checked. The
seconds of a timestamp fill a word, so that nothing can be carried into them:
this is why the microseconds are first reduced to less than a second. The
attributes of a message start after a family header that was read before, and a
hardware address is cut to the space it stands in.
-/

namespace Netfilter.Checked

section Reader

variable {α β : Type}

/-- A reader that has not broken down. -/
def unbroken (x : Except Error α) : ExceptT Error Checked α := ExceptT.mk (.ok x)

theorem unbroken_bind (x : Except Error α) (f : α → Except Error β) :
    unbroken (x >>= f) = unbroken x >>= fun a => unbroken (f a) := by
  cases x <;> rfl

theorem unbroken_pure (a : α) : unbroken (pure a) = pure a := rfl

def unbroken? (x : Option α) : OptionT Checked α := OptionT.mk (.ok x)

theorem unbroken?_bind (x : Option α) (f : α → Option β) :
    unbroken? (x >>= f) = unbroken? x >>= fun a => unbroken? (f a) := by
  cases x <;> rfl

theorem unbroken?_pure (a : α) : unbroken? (pure a) = pure a := rfl

theorem lift_ok_bind (a : α) (f : α → OptionT Checked β) :
    OptionT.lift (Except.ok a : Checked α) >>= f = f a := rfl

end Reader

open Log

def ofSeconds (seconds : UInt64) : Timestamp := ⟨seconds, 0⟩

def ofMicroseconds (micros : Nat) : Checked Timestamp := do
  let nanoseconds ← mul halfWord (micros % 1000000) 1000
  .ok ⟨UInt64.ofNat (micros / 1000000), UInt32.ofNat nanoseconds⟩

/-- The sum of two spans of time. Nanoseconds that make up a second are carried. -/
def addSpans (a b : Timestamp) : Checked Timestamp := do
  let seconds ← add word a.seconds.toNat b.seconds.toNat
  let nanoseconds ← add halfWord a.nanoseconds.toNat b.nanoseconds.toNat
  if nanoseconds < 1000000000 then .ok ⟨UInt64.ofNat seconds, UInt32.ofNat nanoseconds⟩
  else do
    let nanoseconds ← sub nanoseconds 1000000000
    let seconds ← add word seconds 1
    .ok ⟨UInt64.ofNat seconds, UInt32.ofNat nanoseconds⟩

theorem ofMicroseconds_eq {micros : Nat} (h : micros < 1000000) :
    ofMicroseconds micros = .ok ⟨0, UInt32.ofNat (micros * 1000)⟩ := by
  have hsmall : micros % 1000000 = micros := Nat.mod_eq_of_lt h
  have hless : micros / 1000000 = 0 := Nat.div_eq_of_lt h
  have hfits : micros * 1000 < halfWord := by
    unfold halfWord
    omega
  rw [ofMicroseconds, hsmall, mul_eq hfits, ok_bind, hless]
  rfl

/-- Adding less than a second to whole seconds carries nothing. -/
theorem addSpans_ofSeconds (seconds : UInt64) {nanoseconds : Nat} (h : nanoseconds < 1000000000) :
    addSpans (ofSeconds seconds) ⟨0, UInt32.ofNat nanoseconds⟩ =
      .ok ⟨seconds, UInt32.ofNat nanoseconds⟩ := by
  have hnano : (UInt32.ofNat nanoseconds).toNat = nanoseconds := by
    rw [UInt32.toNat_ofNat', Nat.mod_eq_of_lt (by omega)]
  have hseconds : add word seconds.toNat 0 = .ok seconds.toNat := add_eq seconds.toNat_lt
  have hfits : add halfWord 0 nanoseconds = .ok nanoseconds := by
    rw [add_eq (by unfold halfWord; omega), Nat.zero_add]
  simp [addSpans, ofSeconds, hnano, hseconds, hfits, h]

def readTimestamp (value : Bytes) : Checked (Except Error Timestamp) :=
  let found := do
    let (seconds, rest) ← Bytes.readBig? 8 value
    let (micros, _) ← Bytes.readBig? 8 rest
    some (seconds, micros)
  match found with
  | none => .ok (.error (.unreadable (.cutShort .timestamp value.length)))
  | some (seconds, micros) => do
      let fraction ← ofMicroseconds (micros % 1000000)
      let time ← addSpans (ofSeconds (UInt64.ofNat seconds)) fraction
      .ok (.ok time)

theorem readTimestamp_eq (value : Bytes) : readTimestamp value = .ok (Log.readTimestamp value) := by
  unfold readTimestamp Log.readTimestamp
  cases Bytes.readBig? 8 value with
  | none => rfl
  | some first =>
      obtain ⟨seconds, rest⟩ := first
      cases hsecond : Bytes.readBig? 8 rest with
      | none => simp [hsecond]
      | some second =>
          obtain ⟨micros, left⟩ := second
          have hmicros : micros % 1000000 < 1000000 := Nat.mod_lt _ (by decide)
          have hnano : micros % 1000000 * 1000 < 1000000000 := by omega
          simp only [Option.bind_eq_bind, Option.bind_some, hsecond, ofMicroseconds_eq hmicros,
            addSpans_ofSeconds _ hnano, ok_bind]

def readHardwareAddress (value : Bytes) : Checked (Except Error Bytes) :=
  let found := do
    let (length, rest) ← Bytes.readBig? 2 value
    let (_, rest) ← Bytes.readBig? 2 rest
    let (space, _) ← Bytes.split? 8 rest
    some (length, space)
  match found with
  | none => .ok (.error (.unreadable (.cutShort .hardwareAddress value.length)))
  | some (length, space) => do
      let address ← slice space 0 (min length 8)
      .ok (.ok address)

theorem length_of_split? {k : Nat} {data front rest : Bytes}
    (h : Bytes.split? k data = some (front, rest)) : front.length = k := by
  unfold Bytes.split? at h
  split_ifs at h with hlong
  obtain ⟨rfl, -⟩ := Prod.mk.inj (Option.some.inj h)
  exact List.length_take_of_le ((Bytes.hasAtLeast_iff k data).1 hlong)

theorem readHardwareAddress_eq (value : Bytes) :
    readHardwareAddress value = .ok (Log.readHardwareAddress value) := by
  unfold readHardwareAddress Log.readHardwareAddress
  cases Bytes.readBig? 2 value with
  | none => rfl
  | some first =>
      obtain ⟨length, rest⟩ := first
      cases hsecond : Bytes.readBig? 2 rest with
      | none => simp [hsecond]
      | some second =>
          obtain ⟨padding, left⟩ := second
          cases hspace : Bytes.split? 8 left with
          | none => simp [hsecond, hspace]
          | some third =>
              obtain ⟨space, trailing⟩ := third
              have height : space.length = 8 := length_of_split? hspace
              have hcut : slice space 0 (min length 8) = .ok (space.take length) := by
                rw [slice_zero_eq (by omega), ← height, ← List.take_eq_take_min]
              simp [hsecond, hspace, hcut]

def field? {α : Type} (t : FieldTable) (f : Field) (read : Bytes → Checked (Except Error α)) :
    ExceptT Error Checked (Option α) :=
  match t.get? f.number with
  | none => unbroken (.ok none)
  | some value => do
      let x ← ExceptT.mk (read value)
      pure (some x)

theorem field?_eq {α : Type} (t : FieldTable) (f : Field) {read : Bytes → Checked (Except Error α)}
    {plain : Bytes → Except Error α} (h : ∀ value, read value = .ok (plain value)) :
    field? t f read = unbroken (Log.field? t f plain) := by
  unfold field? Log.field?
  cases t.get? f.number with
  | none => rfl
  | some value =>
      simp only [h]
      cases plain value <;> rfl

def word32 (value : Bytes) : Checked (Except Error UInt32) := .ok (Value.word32 value)

def entryOfTable (family : FamilyHeader) (t : FieldTable) : ExceptT Error Checked Entry := do
  let (protocol, hook) ← match t.get? Field.packetHeader.number with
    | some value => unbroken (readHeader value)
    | none => unbroken (.error (.invalidMessage .logEntryWithoutHeader))
  let mark ← field? t .mark word32
  let timestamp ← field? t .timestamp readTimestamp
  let inDevice ← field? t .inDevice word32
  let outDevice ← field? t .outDevice word32
  let physicalInDevice ← field? t .physicalInDevice word32
  let physicalOutDevice ← field? t .physicalOutDevice word32
  let hardwareAddress ← field? t .hardwareAddress readHardwareAddress
  let userId ← field? t .userId word32
  let groupId ← field? t .groupId word32
  let sequence ← field? t .sequence word32
  let globalSequence ← field? t .globalSequence word32
  let rulePrefix ← field? t .rulePrefix text
  return {
    group := family.resource, family := family.family, protocol, hook, mark, timestamp, inDevice
    outDevice, physicalInDevice, physicalOutDevice, hardwareAddress, userId, groupId, sequence
    globalSequence, rulePrefix, payload := (t.get? Field.payload.number).getD [] }

theorem entryOfTable_eq (family : FamilyHeader) (t : FieldTable) :
    entryOfTable family t = unbroken (Entry.ofTable family t) := by
  have hnumber (f : Field) : field? t f word32 = unbroken (Log.field? t f Value.word32) :=
    field?_eq t f fun _ => rfl
  have htime : field? t .timestamp readTimestamp =
      unbroken (Log.field? t .timestamp Log.readTimestamp) := field?_eq t _ readTimestamp_eq
  have haddress : field? t .hardwareAddress readHardwareAddress =
      unbroken (Log.field? t .hardwareAddress Log.readHardwareAddress) :=
    field?_eq t _ readHardwareAddress_eq
  have htext : field? t .rulePrefix text = unbroken (Log.field? t .rulePrefix Value.text) :=
    field?_eq t _ text_eq
  unfold entryOfTable Entry.ofTable
  cases t.get? Field.packetHeader.number <;>
    simp only [unbroken_bind, hnumber, htime, haddress, htext, unbroken_pure]

theorem attributes_of_read {payload rest : Bytes} {family : FamilyHeader}
    (h : FamilyHeader.read payload = .ok (family, rest)) :
    sliceFrom payload FamilyHeader.size = .ok rest := by
  unfold FamilyHeader.read at h
  split at h
  · obtain ⟨-, rfl⟩ := Prod.mk.inj (Except.ok.inj h)
    exact sliceFrom_eq (by simp [FamilyHeader.size])
  · cases h

def decodeEntry (payload : Bytes) (t : FieldTable) : Checked (Except Error Entry × FieldTable) :=
  match FamilyHeader.read payload with
  | .error e => .ok (.error e, t)
  | .ok (family, _) => do
      let attributes ← sliceFrom payload FamilyHeader.size
      let (decoded, t) ← decodeTable t attributes
      match decoded with
      | .error e => .ok (.error e, t)
      | .ok () => do
          let entry ← (entryOfTable family t).run
          .ok (entry, t)

theorem decodeEntry_eq (payload : Bytes) (t : FieldTable) :
    decodeEntry payload t = .ok (Entry.decode payload t) := by
  unfold decodeEntry Entry.decode
  cases h : FamilyHeader.read payload with
  | error e => rfl
  | ok opening =>
      obtain ⟨family, rest⟩ := opening
      simp only [attributes_of_read h, ok_bind, decodeTable_eq, entryOfTable_eq]
      obtain ⟨decoded, t⟩ := t.decode rest
      cases decoded <;> rfl

def item? (m : Message) (t : FieldTable) : Checked (Option (Except Error Entry) × FieldTable) :=
  if m.header.isError then do
    let answer ← checkAck m.payload
    match answer with
    | .ok () => .ok (none, t)
    | .error e => .ok (some (.error e), t)
  else if m.header.type ≠ Message.typeOf Subsystem.log Operation.packet.number then .ok (none, t)
  else do
    let (entry, t) ← decodeEntry m.payload t
    .ok (some entry, t)

theorem item?_eq (m : Message) (t : FieldTable) : item? m t = .ok (Log.item? m t) := by
  unfold item? Log.item?
  by_cases herror : m.header.isError
  · rw [if_pos herror, if_pos herror, checkAck_eq, ok_bind]
    cases Message.checkAck m.payload <;> rfl
  · rw [if_neg herror, if_neg herror]
    by_cases hother : m.header.type ≠ Message.typeOf Subsystem.log Operation.packet.number
    · rw [if_pos hother, if_pos hother]
    · rw [if_neg hother, if_neg hother, decodeEntry_eq]
      rfl

def itemsOfDatagram (buffer : Bytes) (n : Nat) : Checked (List (Except Error Entry)) := do
  let data ← slice buffer 0 n
  let (found, _) ← forEach messages
    (fun _ item s =>
      match item with
      | .error e => .ok (.done (s.1 ++ [.error e], s.2))
      | .ok m => do
          let (item, t) ← item? m s.2
          .ok (.yield (s.1 ++ item.toList, t)))
    (([] : List (Except Error Entry)), Table.empty) data
  .ok found

theorem itemsOfDatagram_eq (data : Bytes) :
    itemsOfDatagram data data.length = .ok (Log.itemsOfDatagram data) := by
  have hfold (ms : List Message) (found : List (Except Error Entry)) (t : FieldTable) :
      (ms.foldl (fun s m => (s.1 ++ (Log.item? m s.2).1.toList, (Log.item? m s.2).2)) (found, t)).1
        = found ++ itemsOf ms t := by
    induction ms generalizing found t with
    | nil => simp [itemsOf]
    | cons m ms ih => rw [List.foldl_cons, ih, itemsOf, List.append_assoc]
  rw [itemsOfDatagram, slice_zero_eq le_rfl, ok_bind, List.take_length,
    (covers_messages data).forEach_eq
      (fun s m => (s.1 ++ (Log.item? m s.2).1.toList, (Log.item? m s.2).2))
      (fun e s => (s.1 ++ [.error e], s.2))
      (fun _ m s => by simp [item?_eq]) (fun _ _ _ => .inl rfl),
    ok_bind, Log.itemsOfDatagram]
  cases h : (Message.walk data).fault with
  | none => simp [hfold]
  | some e => simp [hfold]

def ports (headerSize : Nat) (packet : Bytes) : Checked (Option (UInt16 × UInt16)) := do
  let stop ← add word headerSize 4
  if packet.length < stop then .ok none
  else do
    let piece ← slice packet headerSize stop
    let b₀ ← byteAt piece 0
    let b₁ ← byteAt piece 1
    let b₂ ← byteAt piece 2
    let b₃ ← byteAt piece 3
    .ok (some (UInt16.ofNat (Bytes.ofBig [b₀, b₁]), UInt16.ofNat (Bytes.ofBig [b₂, b₃])))

theorem ports_eq {headerSize : Nat} (h : headerSize + 4 < word) (packet : Bytes) :
    ports headerSize packet = .ok (Ipv4.ports headerSize packet) := by
  rw [ports, add_eq h, ok_bind, Ipv4.ports]
  have hlength : (packet.drop headerSize).length = packet.length - headerSize := List.length_drop
  by_cases hshort : packet.length < headerSize + 4
  · rw [if_pos hshort]
    match packet.drop headerSize, hlength with
    | [], _ | [_], _ | [_, _], _ | [_, _, _], _ => rfl
    | _ :: _ :: _ :: _ :: _, hlength =>
        simp only [List.length_cons] at hlength
        omega
  · rw [if_neg hshort, slice_eq (Nat.le_add_right _ _) (Nat.le_of_not_lt hshort),
      Nat.add_sub_cancel_left, ok_bind]
    match packet.drop headerSize, hlength with
    | [], hlength | [_], hlength | [_, _], hlength | [_, _, _], hlength =>
        simp only [List.length_cons, List.length_nil] at hlength
        omega
    | b₀ :: b₁ :: b₂ :: b₃ :: rest, _ => rfl

def summary? (packet : Bytes) : OptionT Checked Ipv4.Summary := do
  let (versionAndWords, rest) ← unbroken? (Bytes.readBig? 1 packet)
  let words := versionAndWords % 16
  if versionAndWords / 16 ≠ 4 || words < 5 then failure
  let (_, rest) ← unbroken? (Bytes.readBig? 1 rest)
  let (length, rest) ← unbroken? (Bytes.readBig? 2 rest)
  let (_, rest) ← unbroken? (Bytes.readBig? 2 rest)
  let (fragment, rest) ← unbroken? (Bytes.readBig? 2 rest)
  let (_, rest) ← unbroken? (Bytes.readBig? 1 rest)
  let (protocol, rest) ← unbroken? (Bytes.readBig? 1 rest)
  let (_, rest) ← unbroken? (Bytes.readBig? 2 rest)
  let (source, rest) ← unbroken? (Bytes.readBig? 4 rest)
  let (destination, _) ← unbroken? (Bytes.readBig? 4 rest)
  let headerSize ← OptionT.lift (mul word words 4)
  let first := fragment % 8192 = 0 && (protocol = Ipv4.tcp || protocol = Ipv4.udp)
  let found ← OptionT.lift (if first then ports headerSize packet else .ok none)
  return {
    source := ⟨UInt32.ofNat source⟩
    destination := ⟨UInt32.ofNat destination⟩
    protocol := UInt8.ofNat protocol
    length := UInt16.ofNat length
    sourcePort := found.map (·.1)
    destinationPort := found.map (·.2) }

theorem summary?_eq (packet : Bytes) :
    summary? packet = unbroken? (Ipv4.Summary.ofPacket? packet) := by
  unfold summary? Ipv4.Summary.ofPacket?
  rw [unbroken?_bind]
  refine bind_congr fun ⟨versionAndWords, rest⟩ => ?_
  have hwords : versionAndWords % 16 < 16 := Nat.mod_lt _ (by decide)
  have hmul : mul word (versionAndWords % 16) 4 = .ok (4 * (versionAndWords % 16)) := by
    rw [Nat.mul_comm 4]
    exact mul_eq (by unfold word; omega)
  have hports (first : Bool) :
      (if first then ports (4 * (versionAndWords % 16)) packet else .ok none) =
        .ok (if first then Ipv4.ports (4 * (versionAndWords % 16)) packet else none) := by
    cases first with
    | false => rfl
    | true => exact ports_eq (by unfold word; omega) packet
  by_cases hforeign : (versionAndWords / 16 ≠ 4 || versionAndWords % 16 < 5) = true
  · simp only [hforeign, if_true]
    rfl
  · simp only [hforeign, Bool.false_eq_true, if_false, unbroken?_bind, hmul, hports, lift_ok_bind,
      unbroken?_pure]

end Netfilter.Checked
