import Netfilter.Log.Entry
import Netfilter.Proofs.Wire.Fields
import Netfilter.Proofs.Wire.Value

/-!
# Entries read back

A log message is built from attributes: one for each field that its entry has, in
any order, and others of kinds that are not read. The entry is read back out of
it, whatever the table held before.
-/

namespace Netfilter.Log

def Field.read : List Field :=
  [.packetHeader, .mark, .timestamp, .inDevice, .outDevice, .physicalInDevice, .physicalOutDevice,
    .hardwareAddress, .payload, .rulePrefix, .userId, .sequence, .globalSequence, .groupId]

structure Notification where
  entry : Entry
  /-- The packet, if it is sent along. -/
  payload? : Option Bytes
  /-- What stands in the places that are not used. -/
  filler : UInt8 := 0
  /-- The packet header ends with a place that is not used. -/
  isPadded : Bool := true
  flags : UInt16 := 0
  seq : UInt32 := 0
  port : UInt32 := 0

def Timestamp.encode (t : Timestamp) : Bytes :=
  Bytes.big 8 t.seconds.toNat ++ Bytes.big 8 (t.nanoseconds.toNat / 1000)

def Timestamp.IsWhole (t : Timestamp) : Prop :=
  t.nanoseconds.toNat < 1000000000 ∧ t.nanoseconds.toNat % 1000 = 0

theorem readTimestamp_encode {t : Timestamp} (h : t.IsWhole) : readTimestamp t.encode = .ok t := by
  obtain ⟨hlt, hwhole⟩ := h
  have hseconds := Bytes.readBig?_big_append (k := 8) t.seconds.toNat_lt
    (Bytes.big 8 (t.nanoseconds.toNat / 1000))
  have hmicros := Bytes.readBig?_big_append (k := 8) (n := t.nanoseconds.toNat / 1000) (by omega) []
  rw [List.append_nil] at hmicros
  have hnanos : t.nanoseconds.toNat / 1000 % 1000000 * 1000 = t.nanoseconds.toNat := by omega
  simp only [readTimestamp, Timestamp.encode, hseconds, hmicros, Option.bind_eq_bind,
    Option.bind_some, hnanos, UInt64.ofNat_toNat, UInt32.ofNat_toNat]

def encodeHardwareAddress (filler : UInt8) (address : Bytes) : Bytes :=
  Bytes.big 2 address.length ++
    ([filler, filler] ++ (address ++ List.replicate (8 - address.length) filler))

theorem readHardwareAddress_encode (filler : UInt8) {address : Bytes} (h : address.length ≤ 8) :
    readHardwareAddress (encodeHardwareAddress filler address) = .ok address := by
  let space := address ++ List.replicate (8 - address.length) filler
  have hlength := Bytes.readBig?_big_append (k := 2) (n := address.length) (by omega)
    ([filler, filler] ++ space)
  have hgap : Bytes.readBig? 2 ([filler, filler] ++ space) =
      some (Bytes.ofBig [filler, filler], space) := by
    have hsplit : Bytes.split? 2 ([filler, filler] ++ space) = some ([filler, filler], space) :=
      Bytes.split?_append (k := 2) rfl space
    simp only [Bytes.readBig?, hsplit, Option.map_some]
  have hspace : Bytes.split? 8 space = some (space, []) := by
    have hlen : space.length = 8 := by
      rw [List.length_append, List.length_replicate]
      omega
    have hsplit := Bytes.split?_append hlen []
    rwa [List.append_nil] at hsplit
  simp only [readHardwareAddress, encodeHardwareAddress, hlength, hgap, hspace, space,
    Option.bind_eq_bind, Option.bind_some, List.take_left]

def encodeHeader (protocol : UInt16) (hook : UInt8) (unused : Bytes) : Bytes :=
  Bytes.big 2 protocol.toNat ++ hook :: unused

theorem readHeader_encode (protocol : UInt16) (hook : UInt8) (unused : Bytes) :
    readHeader (encodeHeader protocol hook unused) = .ok (protocol, hook) := by
  change Except.ok (UInt16.ofNat (Bytes.ofBig (Bytes.big 2 protocol.toNat)), hook) = _
  rw [Bytes.ofBig_big_word16]

namespace Notification

open Value (number)

def value (n : Notification) : Field → Option Bytes
  | .packetHeader =>
      some (encodeHeader n.entry.protocol n.entry.hook (if n.isPadded then [n.filler] else []))
  | .mark => number n.entry.mark
  | .timestamp => n.entry.timestamp.map Timestamp.encode
  | .inDevice => number n.entry.inDevice
  | .outDevice => number n.entry.outDevice
  | .physicalInDevice => number n.entry.physicalInDevice
  | .physicalOutDevice => number n.entry.physicalOutDevice
  | .hardwareAddress => n.entry.hardwareAddress.map (encodeHardwareAddress n.filler)
  | .payload => n.payload?
  | .rulePrefix => n.entry.rulePrefix.map fun s => Utf8.encode s ++ [0]
  | .userId => number n.entry.userId
  | .sequence => number n.entry.sequence
  | .globalSequence => number n.entry.globalSequence
  | .groupId => number n.entry.groupId
  | _ => none

def attributes (n : Notification) : List Attribute :=
  Attribute.ofFields Field.number n.value Field.read

def opening (n : Notification) : Draft :=
  { Draft.netfilter Subsystem.log Operation.packet.number n.flags n.entry.family n.entry.group with
    seq := n.seq, port := n.port }

/-- The entry can be written, and its packet is the one that is sent along. -/
structure IsWritable (n : Notification) : Prop where
  timestamp : ∀ t ∈ n.entry.timestamp, t.IsWhole
  hardwareAddress : ∀ address ∈ n.entry.hardwareAddress, address.length ≤ 8
  noZero : ∀ s ∈ n.entry.rulePrefix, '\x00' ∉ s.toList
  rulePrefix : ∀ s ∈ n.entry.rulePrefix, (Utf8.encode s).length ≤ 65530
  payload : n.entry.payload = n.payload?.getD []
  packet : n.entry.payload.length ≤ 65531

theorem aligned_opening (n : Notification) : n.opening.Aligned :=
  Draft.aligned_netfilter Subsystem.log Operation.packet.number n.flags n.entry.family n.entry.group

variable {n : Notification} {as others : List Attribute}

theorem fits_of_mem_attributes (h : n.IsWritable) {a : Attribute} (ha : a ∈ n.attributes) :
    a.Fits := by
  have hmax : Attribute.maxValue = 65531 := rfl
  have hnumber {x : Option UInt32} {bytes : Bytes} (h : number x = some bytes) :
      bytes.length ≤ Attribute.maxValue := by
    rw [Value.length_of_number h]
    decide
  obtain ⟨f, hf, bytes, hvalue, rfl⟩ := Attribute.mem_ofFields.1 ha
  change bytes.length ≤ Attribute.maxValue
  -- all but the address, the packet and the text have a size of their own
  cases f with
  | packetHeader =>
      obtain rfl := Option.some.inj hvalue
      rw [encodeHeader, List.length_append, Bytes.length_big]
      cases n.isPadded <;> simp [hmax]
  | mark => exact hnumber hvalue
  | timestamp =>
      obtain ⟨t, -, rfl⟩ := Option.map_eq_some_iff.1 hvalue
      rw [Timestamp.encode, List.length_append, Bytes.length_big, Bytes.length_big]
      decide
  | inDevice => exact hnumber hvalue
  | outDevice => exact hnumber hvalue
  | physicalInDevice => exact hnumber hvalue
  | physicalOutDevice => exact hnumber hvalue
  | hardwareAddress =>
      obtain ⟨address, haddress, rfl⟩ := Option.map_eq_some_iff.1 hvalue
      have hle := h.hardwareAddress address haddress
      simp only [encodeHardwareAddress, List.length_append, Bytes.length_big, List.length_cons,
        List.length_nil, List.length_replicate]
      omega
  | payload =>
      have hpayload := h.packet
      have hsome : n.payload? = some bytes := hvalue
      rw [h.payload, hsome, Option.getD_some] at hpayload
      omega
  | rulePrefix =>
      obtain ⟨s, hs, rfl⟩ := Option.map_eq_some_iff.1 hvalue
      have hle := h.rulePrefix s hs
      rw [List.length_append, List.length_singleton]
      omega
  | userId => exact hnumber hvalue
  | sequence => exact hnumber hvalue
  | globalSequence => exact hnumber hvalue
  | groupId => exact hnumber hvalue
  | _ => cases hvalue

theorem field?_eq_ok {α : Type} {t : FieldTable} {f : Field} {x : Option α} {encode : α → Bytes}
    {read : Bytes → Except Error α} (ht : t.get? f.number = x.map encode)
    (hread : ∀ y ∈ x, read (encode y) = .ok y) : field? t f read = .ok x := by
  rw [field?, ht]
  cases x with
  | none => rfl
  | some y => simp only [Option.map_some, hread y rfl, Except.map]

theorem ofTable_eq_ok (h : n.IsWritable) {t : FieldTable}
    (ht : ∀ f ∈ Field.read, t.get? f.number = n.value f) :
    Entry.ofTable ⟨n.entry.family, 0, n.entry.group⟩ t = .ok n.entry := by
  have hnumber {f : Field} {x : Option UInt32} (hf : f ∈ Field.read) (hx : n.value f = number x) :
      field? t f Value.word32 = .ok x :=
    field?_eq_ok ((ht f hf).trans hx) fun y _ => Value.word32_big y
  have htimestamp : field? t .timestamp readTimestamp = .ok n.entry.timestamp :=
    field?_eq_ok (ht .timestamp (by decide)) fun y hy => readTimestamp_encode (h.timestamp y hy)
  have haddress : field? t .hardwareAddress readHardwareAddress = .ok n.entry.hardwareAddress :=
    field?_eq_ok (ht .hardwareAddress (by decide)) fun y hy =>
      readHardwareAddress_encode n.filler (h.hardwareAddress y hy)
  have hprefix : field? t .rulePrefix Value.text = .ok n.entry.rulePrefix :=
    field?_eq_ok (ht .rulePrefix (by decide)) fun y hy =>
      Value.text_encode_append (h.noZero y hy) []
  have hheader := ht .packetHeader (by decide)
  have hpayload := ht .payload (by decide)
  simp only [value] at hheader hpayload
  simp only [Entry.ofTable, hheader, readHeader_encode, hpayload, htimestamp, haddress, hprefix,
    hnumber (f := .mark) (by decide) rfl, hnumber (f := .inDevice) (by decide) rfl,
    hnumber (f := .outDevice) (by decide) rfl, hnumber (f := .physicalInDevice) (by decide) rfl,
    hnumber (f := .physicalOutDevice) (by decide) rfl, hnumber (f := .userId) (by decide) rfl,
    hnumber (f := .groupId) (by decide) rfl, hnumber (f := .sequence) (by decide) rfl,
    hnumber (f := .globalSequence) (by decide) rfl, ← h.payload]
  rfl

theorem decode_of_built (h : n.IsWritable) (horder : as.Perm (n.attributes ++ others))
    (hothers : ∀ a ∈ others, ∀ f ∈ Field.read, a.kind ≠ f.number) {d : Draft}
    (hbuilt : n.opening.addAll as = .ok d) (t : FieldTable) :
    (Entry.decode d.body t).1 = .ok n.entry := by
  obtain ⟨hfits, rfl⟩ := (Draft.addAll_eq_ok_iff n.aligned_opening).1 hbuilt
  have hread : FamilyHeader.read (n.opening.extend (as.flatMap Attribute.encode)).body =
      .ok (⟨n.entry.family, 0, n.entry.group⟩, as.flatMap Attribute.encode) :=
    FamilyHeader.read_encode_append ⟨n.entry.family, 0, n.entry.group⟩ _
  have hwalk := Attribute.walk_flatMap_encode as hfits
  have hfault : (Attribute.walk (as.flatMap Attribute.encode)).fault = none := by rw [hwalk]
  have hvalues : ∀ f ∈ Field.read,
      (t.decode (as.flatMap Attribute.encode)).2.get? f.number = n.value f := by
    intro f hf
    rw [t.get?_decode hfault f.number_lt_count, hwalk]
    exact Attribute.lastValue?_of_perm horder (by decide)
      (fun f _ => Nat.lt_trans f.number_lt_count (by decide)) hothers hf
  have hentry := ofTable_eq_ok h hvalues
  rw [t.decode_of_fault_none hfault] at hentry
  simp only [Entry.decode, hread, t.decode_of_fault_none hfault]
  exact hentry

/-- A log message is built from these attributes, unless one of the others is too long, and its
entry is read back out of it. -/
structure ReadBack (n : Notification) (as others : List Attribute) : Prop where
  built : (∃ d, n.opening.addAll as = .ok d) ↔ ∀ a ∈ others, a.Fits
  /-- What stands behind the header of the message is read with any table. -/
  entry : ∀ d, n.opening.addAll as = .ok d → ∀ t : FieldTable,
    (Entry.decode (d.finish.drop Message.headerSize) t).1 = .ok n.entry
  /-- A message that can tell its length is all that is found in its datagram. -/
  message : ∀ d, n.opening.addAll as = .ok d → d.size < 2 ^ 32 →
    Message.walk d.finish = ⟨[⟨d.header, d.finish.drop Message.headerSize⟩], none⟩ ∧
      itemsOfDatagram d.finish = [.ok n.entry]

end Notification

/-- The attributes of a log message are read back in any order and among any others that are of
kinds that are not read. -/
theorem entry_readBack (n : Notification) (as others : List Attribute) (h : n.IsWritable)
    (hothers : ∀ a ∈ others, ∀ f ∈ Field.read, a.kind ≠ f.number)
    (horder : as.Perm (n.attributes ++ others)) : n.ReadBack as others := by
  have hbody (d : Draft) : d.finish.drop Message.headerSize = d.body := by
    rw [Draft.finish_eq, ← Message.Header.length_encode d.header, List.drop_left]
  refine ⟨?_, ?_, ?_⟩
  · have hall : (∀ a ∈ as, a.Fits) ↔ ∀ a ∈ n.attributes ++ others, a.Fits :=
      forall_congr' fun a => imp_congr_left horder.mem_iff
    rw [Draft.exists_addAll_iff n.aligned_opening, hall, List.forall_mem_append]
    exact and_iff_right fun a => Notification.fits_of_mem_attributes h
  · intro d hbuilt t
    rw [hbody]
    exact Notification.decode_of_built h horder hothers hbuilt t
  · intro d hbuilt hsize
    have hwalk := Draft.walk_finish (n.aligned_opening.addAll hbuilt) hsize
    have hentry := Notification.decode_of_built h horder hothers hbuilt Table.empty
    have htype : d.header.type = Message.typeOf Subsystem.log Operation.packet.number := by
      obtain ⟨-, rfl⟩ := (Draft.addAll_eq_ok_iff n.aligned_opening).1 hbuilt
      rfl
    rw [hbody]
    refine ⟨hwalk, ?_⟩
    simp only [itemsOfDatagram, hwalk, itemsOf, item?, Message.Header.isError, htype]
    rw [hentry]
    rfl

def sampleNotice : Notification where
  entry := {
    group := 10, family := 2, protocol := 0x0800, hook := 3, mark := some 7
    timestamp := some ⟨1700000000, 250000000⟩, inDevice := none, outDevice := some 2
    physicalInDevice := none, physicalOutDevice := none
    hardwareAddress := some [0xaa, 0xbb, 0xcc, 0xdd, 0xee, 0xff], userId := none, groupId := none
    sequence := some 12, globalSequence := none, rulePrefix := some "gel\u00f6scht: "
    payload := [0x45, 0] }
  payload? := some [0x45, 0]
  filler := 0xff

/-- A hardware type in network order, which is not read. -/
def sampleOther : Attribute := ⟨0x400F, [0, 1]⟩

/-- The other attribute stands between two fields, and the packet header comes last. -/
def sampleOrder : List Attribute :=
  (sampleNotice.attributes.drop 4).reverse ++ sampleOther ::
    (sampleNotice.attributes.take 4).reverse

theorem entry_readBack_sampleNotice :
    sampleNotice.IsWritable ∧
      (∀ a ∈ [sampleOther], ∀ f ∈ Field.read, a.kind ≠ f.number) ∧
      sampleOrder.Perm (sampleNotice.attributes ++ [sampleOther]) ∧
      ∃ d, sampleNotice.opening.addAll sampleOrder = .ok d ∧ ∀ t : FieldTable,
        (Entry.decode (d.finish.drop Message.headerSize) t).1 = .ok sampleNotice.entry := by
  have hwritable : sampleNotice.IsWritable :=
    ⟨by simp [sampleNotice, Timestamp.IsWhole], by decide, by decide, by decide, rfl, by decide⟩
  have hothers : ∀ a ∈ [sampleOther], ∀ f ∈ Field.read, a.kind ≠ f.number := by decide
  have horder : sampleOrder.Perm (sampleNotice.attributes ++ [sampleOther]) := by decide
  have h := entry_readBack sampleNotice sampleOrder [sampleOther] hwritable hothers horder
  obtain ⟨d, hbuilt⟩ := h.built.2 (by decide)
  exact ⟨hwritable, hothers, horder, d, hbuilt, h.entry d hbuilt⟩

end Netfilter.Log
