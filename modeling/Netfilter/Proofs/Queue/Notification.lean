import Netfilter.Proofs.Queue.Exactness
import Netfilter.Proofs.Queue.Single
import Netfilter.Proofs.Wire.Fields
import Netfilter.Proofs.Wire.Value

/-!
# Notifications read back

A notification about a packet is built from attributes: one for each field that
is given, in any order, and others of kinds that are not read. The receivers of
its queue report one packet, with exactly the values that were given, and the
receivers of other queues report nothing.
-/

namespace Netfilter.Queue

def PacketHeader.encode (h : PacketHeader) : Bytes :=
  Bytes.big 4 h.id.toNat ++ Bytes.big 2 h.protocol.toNat ++ [h.hook]

theorem PacketHeader.read_encode (h : PacketHeader) : read h.encode = .ok (h, []) := by
  have hid := Bytes.readBig?_big_append (k := 4) h.id.toNat_lt
    (Bytes.big 2 h.protocol.toNat ++ [h.hook])
  have hprotocol := Bytes.readBig?_big_append (k := 2) h.protocol.toNat_lt [h.hook]
  have hhook : Bytes.readBig? 1 [h.hook] = some (h.hook.toNat, []) := rfl
  simp only [read, encode, List.append_assoc, hid, hprotocol, hhook, Option.bind_eq_bind,
    Option.bind_some, UInt32.ofNat_toNat, UInt16.ofNat_toNat, UInt8.ofNat_toNat]

def Field.read : List Field :=
  [.packetHeader, .mark, .inDevice, .outDevice, .physicalInDevice, .physicalOutDevice, .payload,
    .capturedLength, .userId, .groupId]

structure Notification where
  queue : UInt16
  info : PacketInfo
  /-- The packet itself, if it is sent along. -/
  payload? : Option Bytes
  family : UInt8 := FamilyHeader.unspecified
  flags : UInt16 := 0
  seq : UInt32 := 0
  port : UInt32 := 0

namespace Notification

open Value (number)

def value (n : Notification) : Field → Option Bytes
  | .packetHeader => some (PacketHeader.encode ⟨n.info.id, n.info.protocol, n.info.hook⟩)
  | .mark => number n.info.mark
  | .inDevice => number n.info.inDevice
  | .outDevice => number n.info.outDevice
  | .physicalInDevice => number n.info.physicalInDevice
  | .physicalOutDevice => number n.info.physicalOutDevice
  | .payload => n.payload?
  | .capturedLength => number n.info.capturedLength
  | .userId => number n.info.userId
  | .groupId => number n.info.groupId
  | _ => none

def attributes (n : Notification) : List Attribute :=
  Attribute.ofFields Field.number n.value Field.read

def opening (n : Notification) : Draft :=
  { Draft.netfilter Subsystem.queue Operation.packet.number n.flags n.family n.queue with
    seq := n.seq, port := n.port }

def reports (n : Notification) (handle : VerdictHandle) : List Report :=
  if handle.queue = n.queue then [.packet n.info (n.payload?.getD []) handle] else []

theorem aligned_opening (n : Notification) : n.opening.Aligned :=
  Draft.aligned_netfilter Subsystem.queue Operation.packet.number n.flags n.family n.queue

variable {n : Notification} {as others : List Attribute}

theorem fits_of_mem_attributes (hpayload : ∀ bytes ∈ n.payload?, bytes.length ≤ Attribute.maxValue)
    {a : Attribute} (ha : a ∈ n.attributes) : a.Fits := by
  have hnumber {x : Option UInt32} {bytes : Bytes} (h : number x = some bytes) :
      bytes.length ≤ Attribute.maxValue := by
    rw [Value.length_of_number h]
    decide
  obtain ⟨f, hf, bytes, hvalue, rfl⟩ := Attribute.mem_ofFields.1 ha
  cases f with
  | packetHeader =>
      obtain rfl := Option.some.inj hvalue
      simp [Attribute.Fits, PacketHeader.encode, Attribute.maxValue, Attribute.headerSize]
  | mark => exact hnumber hvalue
  | inDevice => exact hnumber hvalue
  | outDevice => exact hnumber hvalue
  | physicalInDevice => exact hnumber hvalue
  | physicalOutDevice => exact hnumber hvalue
  | payload => exact hpayload bytes hvalue
  | capturedLength => exact hnumber hvalue
  | userId => exact hnumber hvalue
  | groupId => exact hnumber hvalue
  | _ => cases hvalue

theorem readNumber_number (x : Option UInt32) : (match number x with
    | none => Except.ok none
    | some bytes => (Value.word32 bytes).map some) = Except.ok (ε := Error) x := by
  cases x with
  | none => rfl
  | some x => simp only [number, Option.map_some, Value.word32_big, Except.map]

theorem ofValues_eq_ok {value : Field → Option Bytes}
    (h : ∀ f ∈ Field.read, value f = n.value f) : PacketInfo.ofValues value = .ok n.info := by
  have hbind {α β : Type} {x : Except Error α} {a : α} (hx : x = .ok a) (k : α → Except Error β) :
      x >>= k = k a := by
    rw [hx]
    rfl
  unfold PacketInfo.ofValues
  simp only [h .packetHeader (by decide), h .mark (by decide), h .inDevice (by decide),
    h .outDevice (by decide), h .physicalInDevice (by decide), h .physicalOutDevice (by decide),
    h .capturedLength (by decide), h .userId (by decide), h .groupId (by decide),
    Notification.value]
  refine (hbind (PacketHeader.read_encode _) _).trans ?_
  iterate 8 refine (hbind (readNumber_number _) _).trans ?_
  rfl

theorem lastValue?_eq_value (horder : as.Perm (n.attributes ++ others))
    (hothers : ∀ a ∈ others, ∀ f ∈ Field.read, a.kind ≠ f.number) {f : Field}
    (hf : f ∈ Field.read) : Attribute.lastValue? as f.number = n.value f :=
  Attribute.lastValue?_of_perm horder (by decide)
    (fun f _ => Nat.lt_trans f.number_lt_count (by decide)) hothers hf

theorem reports_of_built (horder : as.Perm (n.attributes ++ others))
    (hothers : ∀ a ∈ others, ∀ f ∈ Field.read, a.kind ≠ f.number) {d : Draft}
    (hbuilt : n.opening.addAll as = .ok d) (handle : VerdictHandle) :
    (Report.ofMessage? handle ⟨d.header, d.body⟩).toList = n.reports handle := by
  obtain ⟨hfits, rfl⟩ := (Draft.addAll_eq_ok_iff n.aligned_opening).1 hbuilt
  have hread : FamilyHeader.read (n.opening.extend (as.flatMap Attribute.encode)).body =
      .ok (⟨n.family, 0, n.queue⟩, as.flatMap Attribute.encode) :=
    FamilyHeader.read_encode_append ⟨n.family, 0, n.queue⟩ _
  have hattributes : Report.ofAttributes handle (as.flatMap Attribute.encode) =
      .packet n.info (n.payload?.getD []) handle := by
    simp only [Report.ofAttributes, Attribute.walk_flatMap_encode as hfits, Report.ofValues,
      ofValues_eq_ok fun f hf => lastValue?_eq_value horder hothers hf,
      lastValue?_eq_value horder hothers (f := .payload) (by decide)]
    rfl
  have htype : (n.opening.extend (as.flatMap Attribute.encode)).header.type =
      Message.typeOf Subsystem.queue Operation.packet.number := rfl
  simp only [Report.ofMessage?, htype, hread, hattributes, reports, eq_comm (a := n.queue)]
  by_cases hqueue : handle.queue = n.queue
  · rw [if_pos hqueue, if_pos hqueue]
    rfl
  · rw [if_neg hqueue, if_neg hqueue]
    rfl

theorem ofDatagram_of_built (horder : as.Perm (n.attributes ++ others))
    (hothers : ∀ a ∈ others, ∀ f ∈ Field.read, a.kind ≠ f.number) {d : Draft}
    (hbuilt : n.opening.addAll as = .ok d) (hsize : d.size < 2 ^ 32) (handle : VerdictHandle) :
    Report.ofDatagram handle d.finish = n.reports handle := by
  have hnext := Draft.next_finish_append (n.aligned_opening.addAll hbuilt) hsize []
  rw [List.append_nil] at hnext
  rw [Report.ofDatagram_of_next_ok hnext, reports_of_built horder hothers hbuilt handle,
    Report.ofDatagram_of_next_none rfl, List.append_nil]

theorem length_reports_le (n : Notification) (handle : VerdictHandle) :
    (n.reports handle).length ≤ 1 := by
  unfold reports
  split <;> simp

theorem untilStop_reports (n : Notification) (handle : VerdictHandle) (answers : List Flow) :
    untilStop answers (n.reports handle) = n.reports handle := by
  unfold reports
  split
  · simp only [untilStop, ite_self]
  · rfl

/-- A receiver that has reported something stays with it; one that has not and that waits for a
datagram has been handed out the notification, and so it has nothing to report. -/
theorem reports_of_accounted {handle : VerdictHandle} {w : Delivery} {taken : List Receipt}
    {c : Channel} (h : Accounted handle w taken c) {data : Bytes}
    (hands : c.socket.handsOut w.arrived = [.ok data])
    (hdata : Report.ofDatagram handle data = n.reports handle) :
    w.reports <+: n.reports handle ∧
      ((w.receiver.step w.links).1 = .waits → 0 < w.receiver.pool.available →
        w.reports = n.reports handle) := by
  have hexact := h.exact
  have hexpected : expected handle w.answers (c.socket.handsOut w.arrived) = n.reports handle := by
    rw [hands, expected, untilFatal_of_calm (by simp [isFatal]), List.flatMap_singleton,
      Report.ofReceipt, hdata, untilStop_reports]
  have hbegins := hexpected ▸ hexact.inOrder
  refine ⟨hbegins, fun hwaits hfree => ?_⟩
  -- one report is all there is, so whoever has handed over a packet has made it
  rcases hexact.waiting hwaits with
    ⟨hphase, hnone⟩ | ⟨info, payload, rest, table, hphase, hnone⟩ | ⟨rest, table, hphase⟩ |
      ⟨exit, hphase⟩
  · have htaken : c.socket.handsOut taken = [.ok data] := by
      rw [← hands, h.arrived, Socket.handsOut_append, hnone, List.append_nil]
    rw [hexact.complete hphase, htaken, List.flatMap_singleton, Report.ofReceipt, hdata]
  · omega
  · have hstanding := h.standing
    rw [hphase] at hstanding
    obtain ⟨-, front, info, payload, hreports, -⟩ := hstanding.of_handling
    refine hbegins.eq_of_length_le ?_
    have hone := n.length_reports_le handle
    rw [hreports, List.length_append, List.length_singleton]
    omega
  · rw [(hexact.ended exit hphase).1, hexpected]

/-- A notification is built from these attributes, unless one of the others is too long, and every
receiver reports just what it is to report of it. -/
structure ReadBack (n : Notification) (as others : List Attribute) : Prop where
  built : (∃ d, n.opening.addAll as = .ok d) ↔ ∀ a ∈ others, a.Fits
  /-- A receiver that waits for a datagram and has a free buffer, whatever its handler does. -/
  sessions : ∀ d, n.opening.addAll as = .ok d → d.size < 2 ^ 32 →
    ∀ (s : Session) (r : Receiver) (c : Channel), s.Awaits r c →
      c.socket.handsOut c.socket.inbox = [.ok d.finish] →
      s.run.1.filterMap Session.Event.report? = n.reports r.handle
  /-- A receiver that makes its steps while the notification arrives, packets are answered, buffers
  are given back and verdicts are sent. -/
  deliveries : ∀ d, n.opening.addAll as = .ok d → d.size < 2 ^ 32 →
    ∀ (handle : VerdictHandle) (count bufferSize : Nat) (links : Links) (c c' : Channel)
      (happenings : List Happening), links.channels[handle.link]? = some c → c.isOpen = true →
      let w := (Delivery.start handle count bufferSize links c).run happenings
      w.links.channels[handle.link]? = some c' →
      c'.socket.handsOut w.arrived = [.ok d.finish] →
      w.reports <+: n.reports handle ∧
        ((w.receiver.step w.links).1 = .waits → 0 < w.receiver.pool.available →
          w.reports = n.reports handle)

end Notification

/-- The attributes of a notification are read back in any order and among any others that are of
kinds that are not read. -/
theorem notification_readBack (n : Notification) (as others : List Attribute)
    (hpayload : ∀ bytes ∈ n.payload?, bytes.length ≤ Attribute.maxValue)
    (hothers : ∀ a ∈ others, ∀ f ∈ Field.read, a.kind ≠ f.number)
    (horder : as.Perm (n.attributes ++ others)) : n.ReadBack as others := by
  refine ⟨?_, ?_, ?_⟩
  · rw [Draft.exists_addAll_iff n.aligned_opening]
    have hall : (∀ a ∈ as, a.Fits) ↔ ∀ a ∈ n.attributes ++ others, a.Fits :=
      forall_congr' fun a => imp_congr_left horder.mem_iff
    rw [hall, List.forall_mem_append]
    exact and_iff_right fun a => Notification.fits_of_mem_attributes hpayload
  · intro d hbuilt hsize s r c hawaits hands
    have hnext := Draft.next_finish_append (n.aligned_opening.addAll hbuilt) hsize []
    rw [List.append_nil] at hnext
    rw [hawaits.reports hands hnext, Notification.reports_of_built horder hothers hbuilt]
  · intro d hbuilt hsize handle count bufferSize links c c' happenings hc hopen w hc' hands
    obtain ⟨taken, c'', h⟩ := (accounted_start hc hopen).run happenings
    obtain rfl : c' = c'' := Option.some.inj (hc'.symm.trans h.channel)
    exact Notification.reports_of_accounted h hands
      (Notification.ofDatagram_of_built horder hothers hbuilt hsize handle)

def sampleNotice : Notification where
  queue := 7
  info := ⟨42, 0x0800, 1, some 5, none, some 0xFFFFFFFF, none, none, some 1500, none, none⟩
  payload? := some [0x45, 0]

def sampleOther : Attribute := ⟨0x800B, [8, 0, 1, 0]⟩

/-- The other attribute comes before the packet header. -/
def sampleOrder : List Attribute :=
  sampleNotice.attributes.tail ++ [sampleOther] ++ sampleNotice.attributes.take 1

/-- A receiver for this queue, of one buffer, which is about to receive a draft. -/
def sampleSession (queue : UInt16) (d : Draft) : Session where
  binding := {
    settings := { number := queue }
    links := { channels := [{ socket := { port := 4242, inbox := [.ok d.finish] } }] } }
  holder := .receiver
  receiver := some { handle := ⟨0, queue⟩, pool := Pool.ofCount 1 64 }

theorem notification_readBack_sampleNotice :
    (∀ bytes ∈ sampleNotice.payload?, bytes.length ≤ Attribute.maxValue) ∧
      (∀ a ∈ [sampleOther], ∀ f ∈ Field.read, a.kind ≠ f.number) ∧
      sampleOrder.Perm (sampleNotice.attributes ++ [sampleOther]) ∧
      ∃ d, sampleNotice.opening.addAll sampleOrder = .ok d ∧
        (sampleSession 7 d).run.1.filterMap Session.Event.report? =
          [.packet sampleNotice.info [0x45, 0] ⟨0, 7⟩] ∧
        (sampleSession 8 d).run.1.filterMap Session.Event.report? = [] := by
  have hpayload : ∀ bytes ∈ sampleNotice.payload?, bytes.length ≤ Attribute.maxValue := by decide
  have hothers : ∀ a ∈ [sampleOther], ∀ f ∈ Field.read, a.kind ≠ f.number := by decide
  have horder : sampleOrder.Perm (sampleNotice.attributes ++ [sampleOther]) := by decide
  have h := notification_readBack sampleNotice sampleOrder [sampleOther] hpayload hothers horder
  obtain ⟨d, hbuilt⟩ := h.built.2 (by decide)
  have hsize : d.size < 2 ^ 32 := by
    obtain ⟨-, rfl⟩ := (Draft.addAll_eq_ok_iff sampleNotice.aligned_opening).1 hbuilt
    decide
  have hawaits (queue : UInt16) : (sampleSession queue d).Awaits
      { handle := ⟨0, queue⟩, pool := Pool.ofCount 1 64 }
      { socket := { port := 4242, inbox := [.ok d.finish] } } :=
    ⟨rfl, rfl, rfl, rfl, rfl, Pool.consistent_ofCount 1 64, Nat.zero_lt_one⟩
  exact ⟨hpayload, hothers, horder, d, hbuilt, h.sessions d hbuilt hsize _ _ _ (hawaits 7) rfl,
    h.sessions d hbuilt hsize _ _ _ (hawaits 8) rfl⟩

end Netfilter.Queue
