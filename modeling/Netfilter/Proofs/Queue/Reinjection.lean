import Mathlib
import Netfilter.Proofs.Pool.Leases
import Netfilter.Proofs.Queue.Stopping

/-!
# Whatever is received can be sent back

The length of an attribute has sixteen bits, in what is received as in what is
sent. So the payload of every packet that a receiver hands over fits into a
verdict, and what is written is read back as one verdict with that payload. The
buffer of the packet is out until then, even if the queue is stopped meanwhile,
and free again afterwards whatever comes of the write.
-/

namespace Netfilter.Queue

def IsVerdict (data : Bytes) (queue : UInt16) (disposition : Disposition) (packet : UInt32)
    (payload? : Option Bytes) : Prop :=
  ∃ m attributes, Message.walk data = ⟨[m], none⟩ ∧
    m.header.type = Message.typeOf Subsystem.queue Operation.verdict.number ∧
    FamilyHeader.read m.payload =
      .ok ({ family := FamilyHeader.unspecified, resource := queue }, attributes) ∧
    ∀ t : FieldTable, (t.decode attributes).1 = .ok () ∧
      (t.decode attributes).2.get? Field.verdictHeader.number =
        some (Bytes.big 4 disposition.number.toNat ++ Bytes.big 4 packet.toNat) ∧
      (t.decode attributes).2.get? Field.payload.number = payload?

namespace Verdict

/-- All attributes of a verdict with this payload. An empty payload is none. -/
def laden (v : Verdict) (payload : Bytes) : List Attribute :=
  v.attributes ++ if payload.isEmpty then [] else [⟨Field.payload.rawType, payload⟩]

theorem fits_laden (v : Verdict) {payload : Bytes} (hle : payload.length ≤ maxPayload) :
    ∀ a ∈ v.laden payload, a.Fits := by
  intro a ha
  unfold laden attributes at ha
  rcases List.mem_append.1 ha with ha | ha
  · rcases List.mem_cons.1 ha with rfl | ha
    · exact v.deciding_fits
    · obtain ⟨mark, -, rfl⟩ := Option.map_eq_some_iff.1 (Option.mem_toList.1 ha)
      exact marking_fits mark
  · split_ifs at ha
    · cases ha
    · obtain rfl := List.mem_singleton.1 ha
      exact hle

theorem lastValue?_laden (v : Verdict) (payload : Bytes) :
    Attribute.lastValue? (v.laden payload) Field.verdictHeader.number = some v.decision ∧
      Attribute.lastValue? (v.laden payload) Field.payload.number =
        if payload.isEmpty then none else some payload := by
  have hdeciding : v.deciding.kind = 2 := rfl
  have hmarking (mark : UInt32) : (marking mark).kind = 3 := rfl
  have hpayload : Attribute.kind ⟨Field.payload.rawType, payload⟩ = 10 := rfl
  have hvalue : v.deciding.value = v.decision := rfl
  unfold Attribute.lastValue? laden attributes Field.number
  cases v.mark <;> split_ifs <;> simp [hdeciding, hmarking, hpayload, hvalue]

/-- The pieces of a verdict are a draft that grew by all its attributes. -/
theorem flatten_pieces {v : Verdict} {queue : UInt16} {payload : Bytes} {seq : UInt32}
    {pieces : List Bytes} (hw : v.Written queue payload seq pieces)
    (hle : payload.length ≤ maxPayload) :
    pieces.flatten =
      ((bare queue seq).extend ((v.laden payload).flatMap Attribute.encode)).finish := by
  obtain ⟨d, hdraft, hflatten⟩ := hw.built
  rw [draft_eq] at hdraft
  rw [hflatten, laden, List.flatMap_append, ← Draft.extend_extend, ← unladen]
  split_ifs at hdraft ⊢ with hempty
  · obtain rfl := Except.ok.inj hdraft
    rw [List.flatMap_nil, Draft.extend_nil]
  · have hadd := Draft.add_of_fits (v.aligned_unladen queue seq)
      ⟨Field.payload.rawType, payload⟩ hle
    rw [hdraft] at hadd
    rw [Except.ok.inj hadd, List.flatMap_singleton]

/-- What is written for a verdict is read back as that verdict. -/
theorem isVerdict_flatten {v : Verdict} {queue : UInt16} {payload : Bytes} {seq : UInt32}
    {pieces : List Bytes} (hw : v.Written queue payload seq pieces)
    (hle : payload.length ≤ maxPayload) :
    IsVerdict pieces.flatten queue v.disposition v.packet
      (if payload.isEmpty then none else some payload) := by
  let d := (bare queue seq).extend ((v.laden payload).flatMap Attribute.encode)
  have hflatten : pieces.flatten = d.finish := flatten_pieces hw hle
  have haligned : d.Aligned :=
    (aligned_bare queue seq).extend (Attribute.flatMap_encode_mod (v.laden payload))
  have hsize : d.size < 2 ^ 32 := by
    obtain ⟨header, -, hlength⟩ := hw.counted
    rw [← Draft.length_finish, ← hflatten, ← hlength]
    exact header.length.toNat_lt
  have hwalk := Attribute.walk_flatMap_encode (v.laden payload) (v.fits_laden hle)
  obtain ⟨hdecision, hpayload⟩ := v.lastValue?_laden payload
  refine ⟨⟨d.header, d.body⟩, (v.laden payload).flatMap Attribute.encode, ?_, rfl, ?_, ?_⟩
  · rw [hflatten]
    exact Draft.walk_finish haligned hsize
  · exact FamilyHeader.read_encode_append _ _
  · intro t
    have hfault : (Attribute.walk ((v.laden payload).flatMap Attribute.encode)).fault = none := by
      rw [hwalk]
    refine ⟨by rw [t.decode_of_fault_none hfault], ?_, ?_⟩
    · rw [t.get?_decode hfault (Field.number_lt_count _), hwalk]
      exact hdecision
    · rw [t.get?_decode hfault (Field.number_lt_count _), hwalk]
      exact hpayload

end Verdict

/-- The packet was read from a message of this datagram, whose payload attribute was this. -/
def Packet.IsFrom (p : Packet) (data : Bytes) (payload? : Option Bytes) : Prop :=
  ∃ m ∈ (Message.walk data).items, ∃ family attributes,
    m.header.type = Message.typeOf Subsystem.queue Operation.packet.number ∧
    FamilyHeader.read m.payload = .ok (family, attributes) ∧ family.resource = p.queue ∧
    (Attribute.walk attributes).fault = none ∧
    PacketInfo.ofValues (fun f => Attribute.lastValue? (Attribute.walk attributes).items f.number) =
      .ok p.info ∧
    payload? = Attribute.lastValue? (Attribute.walk attributes).items Field.payload.number

theorem Report.of_ofAttributes {handle handle' : VerdictHandle} {data payload : Bytes}
    {info : PacketInfo} (h : Report.ofAttributes handle data = .packet info payload handle') :
    (Attribute.walk data).fault = none ∧
      PacketInfo.ofValues (fun f => Attribute.lastValue? (Attribute.walk data).items f.number) =
        .ok info ∧
      (Attribute.lastValue? (Attribute.walk data).items Field.payload.number).getD [] =
        payload := by
  unfold Report.ofAttributes at h
  split at h
  · cases h
  · next hfault =>
      unfold Report.ofValues at h
      split at h
      · cases h
      · next info' hinfo =>
          obtain ⟨rfl, hpayload, -⟩ := Report.packet.inj h
          exact ⟨hfault, hinfo, hpayload⟩

theorem Report.of_ofMessage? {handle handle' : VerdictHandle} {m : Message} {payload : Bytes}
    {info : PacketInfo} (h : Report.ofMessage? handle m = some (.packet info payload handle')) :
    m.header.type = Message.typeOf Subsystem.queue Operation.packet.number ∧
      ∃ family attributes, FamilyHeader.read m.payload = .ok (family, attributes) ∧
        family.resource = handle.queue ∧
        Report.ofAttributes handle attributes = .packet info payload handle' := by
  unfold Report.ofMessage? at h
  split_ifs at h with herror htype
  · split at h
    · cases h
    · split_ifs at h
      cases Option.some.inj h
  · split at h
    · cases h
    · next family attributes hread =>
        split_ifs at h with hqueue
        exact ⟨htype, family, attributes, hread, hqueue, Option.some.inj h⟩

theorem Packet.isFrom_of_report {p : Packet} {data : Bytes}
    (h : .packet p.info p.payload p.handle ∈ Report.ofDatagram p.handle data) :
    ∃ payload?, p.IsFrom data payload? ∧ payload?.getD [] = p.payload ∧
      ∀ payload ∈ payload?, payload.length ≤ Verdict.maxPayload := by
  rcases List.mem_append.1 h with h | h
  · obtain ⟨m, hm, hreport⟩ := List.mem_filterMap.1 h
    obtain ⟨htype, family, attributes, hread, hqueue, hattributes⟩ := Report.of_ofMessage? hreport
    obtain ⟨hfault, hinfo, hpayload⟩ := Report.of_ofAttributes hattributes
    refine ⟨_, ⟨m, hm, family, attributes, htype, hread, hqueue, hfault, hinfo, rfl⟩, hpayload, ?_⟩
    intro payload hlast
    obtain ⟨a, ha, rfl⟩ := Attribute.exists_of_lastValue? hlast
    exact Attribute.fits_of_mem_walk attributes a ha
  · obtain ⟨e, -, he⟩ := Option.map_eq_some_iff.1 (Option.mem_toList.1 h)
    cases he

def Delivery.Delivers (w : Delivery) (p : Packet) : Prop :=
  (w.receiver.step w.links).1 = .reports (.packet p)

/-- The packet is the one that a buffer was waited for, and its buffer is out then. -/
theorem Receiver.step_of_packet {r : Receiver} {l : Links} {p : Packet} (hpool : r.pool.Consistent)
    (h : (r.step l).1 = .reports (.packet p)) :
    r.stopRequested = false ∧ ∃ info payload rest table,
      r.phase = .leasing info payload rest table ∧ p.info = info ∧ p.payload = payload ∧
        p.handle = r.handle ∧ (r.step l).2.1.pool.Lends p.lease := by
  obtain ⟨handle, pool, stopRequested, phase⟩ := r
  cases phase with
  | receiving =>
      unfold step receive at h
      dsimp only at h
      split_ifs at h
      split at h <;> cases h
  | reading rest table =>
      obtain ⟨move, phase, hread, -, -, hmute, -⟩ :=
        read_cases ⟨handle, pool, stopRequested, .reading rest table⟩ rest table
      simp only [step, hread] at h
      have hpacket := hmute (Event.report (.packet p)) (by rw [h]; rfl)
      cases hpacket
  | leasing info payload rest table =>
      unfold step handOver at h ⊢
      dsimp only at h ⊢
      rcases hpool.lease?_cases with ⟨-, hl⟩ | ⟨i, free, data, generation, -, hslot, hl⟩
      · dsimp only at hl
        rw [hl] at h
        split_ifs at h
      · dsimp only at hl
        rw [hl] at h ⊢
        split_ifs at h ⊢ with hstop
        · obtain rfl := Event.packet.inj (Move.reports.inj h)
          refine ⟨by simpa using hstop, info, payload, rest, table, rfl, rfl, rfl, rfl, ?_⟩
          exact (Pool.getElem?_set_slots hslot _ _).trans (if_pos rfl)
  | handling rest table => cases h
  | ended exit => cases h

/-- A packet that is handed over comes from a datagram that was handed out. -/
theorem Accounted.origin {handle : VerdictHandle} {w : Delivery} {taken : List Receipt}
    {c : Channel} (h : Accounted handle w taken c) {p : Packet} (hp : w.Delivers p) :
    p.handle = handle ∧ (w.after .step).receiver.pool.Lends p.lease ∧
      ∃ data, .ok data ∈ c.socket.handsOut taken ∧
        .packet p.info p.payload p.handle ∈ Report.ofDatagram p.handle data := by
  obtain ⟨-, info, payload, rest, table, hphase, hinfo, hpayload, hhandle, hlends⟩ :=
    Receiver.step_of_packet h.pool hp
  have hstanding := h.standing
  rw [hphase] at hstanding
  obtain ⟨-, -, -, -, htotal⟩ := (Standing.looking_iff rfl).1 hstanding
  have hmem : .packet info payload handle ∈
      (c.socket.handsOut taken).flatMap (Report.ofReceipt handle) := by
    rw [htotal]
    exact List.mem_append_right _ List.mem_cons_self
  obtain ⟨receipt, hreceipt, hreport⟩ := List.mem_flatMap.1 hmem
  rw [h.handle_eq] at hhandle
  refine ⟨hhandle, hlends, ?_⟩
  rw [hinfo, hpayload, hhandle]
  cases receipt with
  | ok data => exact ⟨data, hreceipt, hreport⟩
  | error cause => cases List.mem_singleton.1 hreport

namespace Service

variable {w : Service} {l : Lease}

/-- The receiver was told to stop or has ended, so that it hands nothing over any more. -/
def IsMute (w : Service) : Prop := w.receiver.stopRequested = true ∨ w.receiver.hasEnded = true

theorem IsMute.happens (h : w.IsMute) (happening : Happening) :
    (w.after (.happens happening)).IsMute := by
  rcases h with hstop | hended
  · obtain ⟨pool, phase, hreceiver, -⟩ := w.delivery.receiver_after happening
    refine .inl ?_
    change (w.delivery.after happening).receiver.stopRequested = true
    rw [hreceiver]
    exact hstop
  · unfold Receiver.hasEnded at hended
    split at hended
    · next exit hphase =>
        have hlater : (w.after (.happens happening)).receiver.phase = .ended exit :=
          Delivery.phase_after_of_ended hphase happening
        exact .inr (by rw [Receiver.hasEnded, hlater])
    · cases hended

theorem IsMute.after (h : w.IsMute) (event : ServiceEvent) : (w.after event).IsMute := by
  cases event with
  | happens happening => exact h.happens happening
  | breaksDown =>
      simp only [Service.after, breakDown]
      split
      · exact .inr rfl
      · exact h
  | stop =>
      simp only [Service.after]
      split
      · exact .inl rfl
      · exact h
  | abandon =>
      simp only [Service.after]
      split
      · exact h
      · exact .inl rfl
  | goOn =>
      change w.goOn.receiver.stopRequested = true ∨ w.goOn.receiver.hasEnded = true
      rw [w.receiver_goOn.1]
      exact h

theorem IsMute.run (h : w.IsMute) (events : List ServiceEvent) : (w.run events).IsMute := by
  induction events generalizing w with
  | nil => exact h
  | cons event events ih => exact ih (h.after event)

/-- Before it is asked to stop, a service is a delivery whose handler may break down. -/
theorem after_of_idle (hidle : w.stopping = .idle) (event : ServiceEvent) :
    (∃ happening, event = .happens happening) ∨ w.after event = w ∨ (w.after event).IsMute := by
  cases event with
  | happens happening => exact .inl ⟨happening, rfl⟩
  | breaksDown =>
      simp only [after, breakDown]
      split
      · exact .inr (.inr (.inr rfl))
      · exact .inr (.inl rfl)
  | stop =>
      simp only [after, hidle]
      exact .inr (.inr (.inl rfl))
  | abandon =>
      simp only [after, hidle]
      exact .inr (.inr (.inl rfl))
  | goOn => exact .inr (.inl (by simp only [after, goOn, hidle]))

theorem delivery_run (hidle : w.stopping = .idle) (events : List ServiceEvent) :
    (∃ happenings, (w.run events).delivery = w.delivery.run happenings) ∨
      (w.run events).IsMute := by
  induction events generalizing w with
  | nil => exact .inl ⟨[], rfl⟩
  | cons event events ih =>
      change (∃ happenings, ((w.after event).run events).delivery = w.delivery.run happenings) ∨
        ((w.after event).run events).IsMute
      rcases after_of_idle hidle event with ⟨happening, rfl⟩ | hsame | hmute
      · refine (ih (w := w.after (.happens happening)) hidle).imp_left ?_
        rintro ⟨happenings, hrun⟩
        exact ⟨happening :: happenings, hrun⟩
      · rw [hsame]
        exact ih hidle
      · exact .inr (hmute.run events)

theorem pool_after (w : Service) (event : ServiceEvent) :
    (w.after event).receiver.pool = w.receiver.pool ∨
      (w.after event).receiver.pool = w.receiver.pool.lease?.2 ∨
      ∃ lease, event = .happens (.giveBack lease) ∧
        (w.after event).receiver.pool = w.receiver.pool.giveBack lease := by
  cases event with
  | happens happening =>
      obtain ⟨pool, phase, hreceiver, hpool⟩ := w.delivery.receiver_after happening
      have hafter : (w.after (.happens happening)).receiver.pool = pool :=
        congrArg Receiver.pool hreceiver
      rw [hafter]
      refine hpool.imp_right (.imp_right ?_)
      rintro ⟨lease, rfl, hback⟩
      exact ⟨lease, rfl, hback⟩
  | breaksDown =>
      simp only [after, breakDown]
      split <;> exact .inl rfl
  | stop =>
      simp only [after]
      split <;> exact .inl rfl
  | abandon =>
      simp only [after]
      split <;> exact .inl rfl
  | goOn => exact .inl (congrArg Receiver.pool w.receiver_goOn.1)

theorem consistent_after (h : w.receiver.pool.Consistent) (event : ServiceEvent) :
    (w.after event).receiver.pool.Consistent := by
  rcases w.pool_after event with hp | hp | ⟨lease, -, hp⟩ <;> rw [hp]
  · exact h
  · exact h.lease?
  · exact h.giveBack lease

theorem consistent_run (h : w.receiver.pool.Consistent) (events : List ServiceEvent) :
    (w.run events).receiver.pool.Consistent := by
  induction events generalizing w with
  | nil => exact h
  | cons event events ih => exact ih (consistent_after h event)

/-- A buffer stays out as long as it is not given back itself. -/
theorem lends_after (hpool : w.receiver.pool.Consistent) (h : w.receiver.pool.Lends l)
    {event : ServiceEvent}
    (hkept : ∀ other, event = .happens (.giveBack other) → other.ticket ≠ l.ticket) :
    (w.after event).receiver.pool.Lends l := by
  rcases w.pool_after event with hp | hp | ⟨other, hevent, hp⟩ <;> rw [hp]
  · exact h
  · exact h.lease? hpool
  · exact h.giveBack (hkept other hevent)

theorem lends_run (hpool : w.receiver.pool.Consistent) (h : w.receiver.pool.Lends l)
    {events : List ServiceEvent}
    (hkept : ∀ other, .happens (.giveBack other) ∈ events → other.ticket ≠ l.ticket) :
    (w.run events).receiver.pool.Lends l := by
  induction events generalizing w with
  | nil => exact h
  | cons event events ih =>
      refine ih (consistent_after hpool event) (lends_after hpool h ?_) ?_
      · rintro other rfl
        exact hkept other List.mem_cons_self
      · exact fun other hother => hkept other (List.mem_cons_of_mem _ hother)

/-- When a service hands a packet over, nothing but a delivery has happened to it. -/
theorem accounted_of_delivers (settings : QueueSettings) {link : Nat} {links : Links} {c : Channel}
    (hc : links.channels[link]? = some c) (hopen : c.isOpen = true) {events : List ServiceEvent}
    (hw : w = (start settings link links c).run events) {p : Packet} (hp : w.delivery.Delivers p) :
    ∃ taken c', Accounted ⟨link, settings.number⟩ w.delivery taken c' := by
  subst hw
  rcases delivery_run (w := start settings link links c) rfl events with ⟨happenings, hrun⟩ | hmute
  · rw [hrun]
    exact (accounted_start hc hopen).run happenings
  · have hpool := consistent_run (w := start settings link links c)
      (Pool.consistent_ofCount _ _) events
    obtain ⟨hgoes, _, _, _, _, hphase, -⟩ := Receiver.step_of_packet hpool hp
    rcases hmute with hstop | hended
    · exact absurd hstop (Bool.eq_false_iff.1 hgoes)
    · rw [Receiver.hasEnded, hphase] at hended
      cases hended

end Service

/-- What comes of sending a packet back unchanged, when its payload attribute was this. Its buffer
is free again, and if the channel is open and takes the next write, the verdict is written, with the
payload attribute unless that was empty. -/
structure SentBack (s : Session) (p : Packet) (disposition : Disposition)
    (payload? : Option Bytes) : Prop where
  buffer : ∃ r r', s.receiver = some r ∧
    (s.act p (.sendBack disposition {})).2.receiver = some r' ∧ p.lease.slot ∉ r.pool.free ∧
    p.lease.slot ∈ r'.pool.free ∧ r'.pool.available = r.pool.available + 1
  written : ∀ c, s.links.channels[p.handle.link]? = some c → c.isOpen = true →
    (Socket.nextFault c.socket.gatherFaults).1 = none →
      (s.act p (.sendBack disposition {})).1 = some (.sent (.ok ())) ∧
        ∃ c' pieces, (s.act p (.sendBack disposition {})).2.links.channels[p.handle.link]? =
            some c' ∧ c'.socket.gathered = c.socket.gathered ++ [pieces] ∧
          IsVerdict pieces.flatten p.queue disposition p.info.id (payload?.filter (!·.isEmpty))

theorem Edit.apply_none (data : Bytes) : Edit.apply {} data = data := List.append_nil data

/-- A verdict whose payload fits is written, if the next write is taken. -/
theorem Verdict.send_of_open (v : Verdict) (queue : UInt16) {payload : Bytes} {c : Channel}
    (hle : payload.length ≤ maxPayload) (hopen : c.isOpen = true)
    (htaken : (Socket.nextFault c.socket.gatherFaults).1 = none) :
    ∃ pieces, v.Written queue payload c.nextSeq pieces ∧ (v.send queue payload c).1.1 = .ok () ∧
      (v.send queue payload c).2.socket.gathered = c.socket.gathered ++ [pieces] := by
  obtain ⟨pieces, hpieces, hwritten⟩ := v.exists_written queue c.nextSeq hle
  rcases hfault : Socket.nextFault c.socket.gatherFaults with ⟨fault, faults⟩
  rw [hfault] at htaken
  obtain rfl : fault = none := htaken
  have hgather : c.socket.gather pieces = (.ok pieces.flatten.length,
      { c.socket with gatherFaults := faults, gathered := c.socket.gathered ++ [pieces] }) := by
    simp only [Socket.gather, hfault]
  have hchannel : c.takeSeq.2.gather pieces = (.ok pieces.flatten.length, { c.takeSeq.2 with
      socket := { c.socket with
        gatherFaults := faults
        gathered := c.socket.gathered ++ [pieces] } }) := by
    have hnumbered : c.takeSeq.2.isOpen = true := hopen
    have hsocket : c.takeSeq.2.socket = c.socket := rfl
    rw [Channel.gather, Channel.withSocket, if_pos hnumbered, hsocket, hgather]
    rfl
  refine ⟨pieces, hwritten, ?_, ?_⟩ <;> rw [send_of_pieces hpieces, hchannel]
  rfl

theorem sentBack_of_lends {s : Session} {r : Receiver} {p : Packet}
    (hreceiver : s.receiver = some r) (hpool : r.pool.Consistent) (hlends : r.pool.Lends p.lease)
    {payload? : Option Bytes} (hpayload : payload?.getD [] = p.payload)
    (hfits : ∀ payload ∈ payload?, payload.length ≤ Verdict.maxPayload)
    (disposition : Disposition) :
    SentBack s p disposition payload? := by
  obtain ⟨hout, hback, hmore⟩ := hlends.taken hpool
  have hle : p.payload.length ≤ Verdict.maxPayload := by
    rw [← hpayload]
    cases payload? with
    | none => exact Nat.zero_le _
    | some payload => exact hfits payload rfl
  refine ⟨⟨r, r.takeBack p.lease, hreceiver, ?_, hout, hback, hmore⟩, ?_⟩
  · simp only [Session.act, Session.conclude, Session.release, Session.withLinks, hreceiver,
      Option.map_some]
  · intro c hc hopen htaken
    -- an empty packet is sent without a payload attribute
    obtain ⟨pieces, hwritten, hsent, hgathered⟩ := Verdict.send_of_open
      ⟨p.info.id, disposition, none⟩ p.queue hle hopen htaken
    have hread := Verdict.isVerdict_flatten hwritten hle
    have hattribute : payload?.filter (!·.isEmpty) =
        if p.payload.isEmpty then none else some p.payload := by
      rw [← hpayload]
      cases payload? with
      | none => rfl
      | some payload => cases payload <;> rfl
    have hsend : p.handle.send ⟨p.info.id, disposition, none⟩ p.payload s.links = _ :=
      Links.onChannel_of_channel hc _ _
    simp only [Session.act, Session.conclude, Edit.apply_none, hsend]
    refine ⟨congrArg (fun result => some (Done.sent result)) hsent, _, pieces,
      Links.channels_put hc _, hgathered, ?_⟩
    rw [hattribute]
    exact hread

def Delivery.Received (w : Delivery) (data : Bytes) : Prop :=
  ∃ c taken, w.links.channels[w.receiver.handle.link]? = some c ∧
    w.arrived = taken ++ c.socket.inbox ∧ .ok data ∈ c.socket.handsOut taken

/-- Whatever the receiver of a queue hands over can be sent back unchanged, however long it was
kept, and whether or not the queue was stopped in the meantime. -/
theorem received_sentBack (settings : QueueSettings) {link : Nat} {links : Links} {c : Channel}
    (hc : links.channels[link]? = some c) (hopen : c.isOpen = true) (events : List ServiceEvent)
    {w : Service} (hw : w = (Service.start settings link links c).run events) {p : Packet}
    (hp : w.delivery.Delivers p) {later : List ServiceEvent}
    (hkept : ∀ other, .happens (.giveBack other) ∈ later → other.ticket ≠ p.lease.ticket)
    {s : Session} (hs : s.receiver = some (w.run (.happens .step :: later)).receiver)
    (disposition : Disposition) :
    p.handle = ⟨link, settings.number⟩ ∧ ∃ data payload?, w.delivery.Received data ∧
      p.IsFrom data payload? ∧ SentBack s p disposition payload? := by
  obtain ⟨taken, c', haccounted⟩ := Service.accounted_of_delivers settings hc hopen hw hp
  obtain ⟨hhandle, hlends, data, hdata, hreport⟩ := haccounted.origin hp
  obtain ⟨payload?, hfrom, hpayload, hfits⟩ := Packet.isFrom_of_report hreport
  have hconsistent : (w.after (.happens .step)).receiver.pool.Consistent :=
    Service.consistent_after haccounted.pool _
  -- nothing that happened since can have taken the buffer
  have hstill : (w.run (.happens .step :: later)).receiver.pool.Lends p.lease :=
    Service.lends_run hconsistent hlends hkept
  refine ⟨hhandle, data, payload?, ⟨c', taken, ?_, haccounted.arrived, hdata⟩, hfrom,
    sentBack_of_lends hs (Service.consistent_run hconsistent later) hstill hpayload hfits
      disposition⟩
  rw [haccounted.handle_eq]
  exact haccounted.channel

def ladenNotification : Bytes :=
  Message.Header.encode ⟨40, Message.typeOf Subsystem.queue Operation.packet.number, 0, 0, 0⟩
    ++ FamilyHeader.encode { family := 2, resource := 7 }
    ++ Attribute.encode ⟨Field.packetHeader.rawType, [0, 0, 0, 42, 8, 0, 1]⟩
    ++ Attribute.encode ⟨Field.payload.rawType, [69, 0, 1]⟩

def ladenChannel : Channel := { socket := { port := 4242, inbox := [.ok ladenNotification] } }

def ladenSettings : QueueSettings := { number := 7, poolSize := 1 }

/-- The notification was received and read, and a buffer is waited for. -/
def ladenService : Service :=
  (Service.start ladenSettings 0 { channels := [ladenChannel] } ladenChannel).run
    [.happens .step, .happens .step]

def ladenPacket : Packet where
  info := ⟨42, 0x0800, 1, none, none, none, none, none, none, none, none⟩
  lease := ⟨0, 0, [69, 0, 1]⟩
  handle := ⟨0, 7⟩

def ladenEvents : List ServiceEvent := [.happens (.answer .proceed), .stop, .happens .step]

def ladenSession : Session where
  binding := {
    settings := ladenSettings
    links := (ladenService.run (.happens .step :: ladenEvents)).links }
  receiver := some (ladenService.run (.happens .step :: ladenEvents)).receiver

theorem received_sentBack_ladenPacket :
    ladenChannel.isOpen = true ∧ ladenService.delivery.Delivers ladenPacket ∧
      (∀ disposition, ∃ data payload?, ladenService.delivery.Received data ∧
        ladenPacket.IsFrom data payload? ∧
        SentBack ladenSession ladenPacket disposition payload?) ∧
      (ladenSession.act ladenPacket (.sendBack .accept {})).1 = some (.sent (.ok ())) := by
  have hdelivers : ladenService.delivery.Delivers ladenPacket := by
    unfold Delivery.Delivers
    cbv
  refine ⟨rfl, hdelivers, fun disposition => ?_, by cbv⟩
  exact (received_sentBack ladenSettings rfl rfl [.happens .step, .happens .step] rfl hdelivers
    (by simp [ladenEvents]) rfl disposition).2

end Netfilter.Queue
