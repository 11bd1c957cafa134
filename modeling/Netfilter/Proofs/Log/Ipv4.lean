import Mathlib.Tactic.MkIffOfInductiveProp
import Netfilter.Log.Ipv4
import Netfilter.Proofs.Bytes

/-!
# What is seen of a packet

A header is read field by field, each from where the one before it ended, so every number of a
summary stands at a fixed offset. Exactly the packets of at least twenty bytes with the version
and a header length of IPv4 have a summary, and it has the ports exactly if the packet is a first
fragment of TCP or UDP that reaches beyond the options of its header to the end of the ports.
Packets of one length that differ in no byte of these have the same summary.
-/

namespace Netfilter

theorem Bytes.length_of_readBig? {k n : Nat} {bs rest : Bytes}
    (h : Bytes.readBig? k bs = some (n, rest)) : bs.length = k + rest.length := by
  unfold Bytes.readBig? Bytes.split? at h
  split_ifs at h with hlong
  · obtain ⟨-, rfl⟩ := Prod.mk.inj (Option.some.inj h)
    have hle := (Bytes.hasAtLeast_iff k bs).1 hlong
    rw [List.length_drop]
    omega
  · cases h

namespace Ipv4

variable {packet other : Bytes} {offset width : Nat} {s : Summary}

def numberAt (packet : Bytes) (offset width : Nat) : Nat :=
  Bytes.ofBig ((packet.drop offset).take width)

def headerWords (packet : Bytes) : Nat := numberAt packet 0 1 % 16

@[mk_iff]
structure HasHeader (packet : Bytes) : Prop where
  long : 20 ≤ packet.length
  version : numberAt packet 0 1 / 16 = 4
  words : 5 ≤ headerWords packet

/-- Ports are to be expected behind the header and its options, and they are there. -/
@[mk_iff]
structure HasPorts (packet : Bytes) : Prop where
  protocol : numberAt packet 9 1 = tcp ∨ numberAt packet 9 1 = udp
  first : numberAt packet 6 2 % 8192 = 0
  long : 4 * headerWords packet + 4 ≤ packet.length

structure Summary.Describes (s : Summary) (packet : Bytes) : Prop where
  source : s.source.number.toNat = numberAt packet 12 4
  destination : s.destination.number.toNat = numberAt packet 16 4
  protocol : s.protocol.toNat = numberAt packet 9 1
  length : s.length.toNat = numberAt packet 2 2
  ports : HasPorts packet →
    (∃ port, s.sourcePort = some port ∧
      port.toNat = numberAt packet (4 * headerWords packet) 2) ∧
    ∃ port, s.destinationPort = some port ∧
      port.toNat = numberAt packet (4 * headerWords packet + 2) 2
  noPorts : ¬ HasPorts packet → s.sourcePort = none ∧ s.destinationPort = none

/-- The bytes that are looked at: the fixed part of the header, and the ports. -/
def IsSeen (packet : Bytes) (i : Nat) : Prop :=
  i < 20 ∨ HasPorts packet ∧ 4 * headerWords packet ≤ i ∧ i < 4 * headerWords packet + 4

theorem numberAt_lt (packet : Bytes) (offset width : Nat) :
    numberAt packet offset width < 256 ^ width := by
  have hlt := Bytes.ofLittle_lt ((packet.drop offset).take width).reverse
  rw [List.length_reverse, List.length_take] at hlt
  exact hlt.trans_le (Nat.pow_le_pow_right (by decide) (Nat.min_le_left _ _))

theorem numberAt_congr (h : ∀ i, offset ≤ i → i < offset + width → other[i]? = packet[i]?) :
    numberAt other offset width = numberAt packet offset width := by
  have hbytes : (other.drop offset).take width = (packet.drop offset).take width := by
    apply List.ext_getElem?
    intro i
    rw [List.getElem?_take, List.getElem?_take, List.getElem?_drop, List.getElem?_drop]
    split_ifs with hi
    · exact h (offset + i) (Nat.le_add_right _ _) (Nat.add_lt_add_left hi _)
    · rfl
  rw [numberAt, numberAt, hbytes]

theorem toNat_word16At (packet : Bytes) (offset : Nat) :
    (UInt16.ofNat (numberAt packet offset 2)).toNat = numberAt packet offset 2 := by
  exact UInt16.toNat_ofNat_of_lt' (numberAt_lt packet offset 2)

theorem toNat_word32At (packet : Bytes) (offset : Nat) :
    (UInt32.ofNat (numberAt packet offset 4)).toNat = numberAt packet offset 4 := by
  exact UInt32.toNat_ofNat_of_lt' (numberAt_lt packet offset 4)

theorem readBig?_drop (h : offset + width ≤ packet.length) :
    Bytes.readBig? width (packet.drop offset) =
      some (numberAt packet offset width, packet.drop (offset + width)) := by
  have hlong : Bytes.hasAtLeast width (packet.drop offset) = true := by
    rw [Bytes.hasAtLeast_iff, List.length_drop]
    omega
  rw [Bytes.readBig?, Bytes.split?, if_pos hlong, Option.map_some, List.drop_drop, numberAt]

def portsOf (packet : Bytes) : Option (UInt16 × UInt16) :=
  if numberAt packet 6 2 % 8192 = 0 && (numberAt packet 9 1 = tcp || numberAt packet 9 1 = udp)
  then ports (4 * headerWords packet) packet else none

theorem ports_of_le {headerSize : Nat} (h : headerSize + 4 ≤ packet.length) :
    ports headerSize packet = some (UInt16.ofNat (numberAt packet headerSize 2),
      UInt16.ofNat (numberAt packet (headerSize + 2) 2)) := by
  have hsource : headerSize + 2 ≤ packet.length := by omega
  have hdestination : headerSize + 2 + 2 ≤ packet.length := by omega
  simp only [ports, readBig?_drop hsource, readBig?_drop hdestination, Option.bind_eq_bind,
    Option.bind_some]
  rfl

theorem length_of_ports {headerSize : Nat} {found : UInt16 × UInt16}
    (h : ports headerSize packet = some found) : headerSize + 4 ≤ packet.length := by
  unfold ports at h
  simp only [Option.bind_eq_bind, Option.bind_eq_some_iff, Prod.exists] at h
  obtain ⟨source, rest, hsource, destination, left, hdestination, -⟩ := h
  have hfirst := Bytes.length_of_readBig? hsource
  have hsecond := Bytes.length_of_readBig? hdestination
  rw [List.length_drop] at hfirst
  omega

theorem portsOf_of_hasPorts (h : HasPorts packet) :
    portsOf packet = some (UInt16.ofNat (numberAt packet (4 * headerWords packet) 2),
      UInt16.ofNat (numberAt packet (4 * headerWords packet + 2) 2)) := by
  rw [portsOf, if_pos (by simpa using ⟨h.first, h.protocol⟩), ports_of_le h.long]

theorem portsOf_of_not_hasPorts (h : ¬ HasPorts packet) : portsOf packet = none := by
  unfold portsOf
  split_ifs with hexpected
  · rw [Option.eq_none_iff_forall_ne_some]
    intro found hfound
    obtain ⟨hfirst, hprotocol⟩ : numberAt packet 6 2 % 8192 = 0 ∧
        (numberAt packet 9 1 = tcp ∨ numberAt packet 9 1 = udp) := by simpa using hexpected
    exact h ⟨hprotocol, hfirst, length_of_ports hfound⟩
  · rfl

def summaryOf (packet : Bytes) : Summary where
  source := ⟨UInt32.ofNat (numberAt packet 12 4)⟩
  destination := ⟨UInt32.ofNat (numberAt packet 16 4)⟩
  protocol := UInt8.ofNat (numberAt packet 9 1)
  length := UInt16.ofNat (numberAt packet 2 2)
  sourcePort := (portsOf packet).map (·.1)
  destinationPort := (portsOf packet).map (·.2)

theorem describes_summaryOf (packet : Bytes) : (summaryOf packet).Describes packet where
  source := toNat_word32At packet 12
  destination := toNat_word32At packet 16
  protocol := UInt8.toNat_ofNat_of_lt' (numberAt_lt packet 9 1)
  length := toNat_word16At packet 2
  ports h := by
    simp only [summaryOf, portsOf_of_hasPorts h, Option.map_some]
    exact ⟨⟨_, rfl, toNat_word16At packet _⟩, ⟨_, rfl, toNat_word16At packet _⟩⟩
  noPorts h := by
    simp only [summaryOf, portsOf_of_not_hasPorts h, Option.map_none, and_self]

theorem ofPacket?_of_long (h : 20 ≤ packet.length) :
    Summary.ofPacket? packet =
      if numberAt packet 0 1 / 16 ≠ 4 || headerWords packet < 5 then none
      else some (summaryOf packet) := by
  have hread (offset width : Nat) (hwithin : offset + width ≤ 20) :
      Bytes.readBig? width (packet.drop offset) =
        some (numberAt packet offset width, packet.drop (offset + width)) :=
    readBig?_drop (hwithin.trans h)
  have hfront := hread 0 1 (by decide)
  rw [List.drop_zero] at hfront
  simp only [Summary.ofPacket?, Option.bind_eq_bind, Option.bind_some, Option.bind_none, hfront,
    hread 1 1 (by decide), hread 2 2 (by decide), hread 4 2 (by decide), hread 6 2 (by decide),
    hread 8 1 (by decide), hread 9 1 (by decide), hread 10 2 (by decide), hread 12 4 (by decide),
    hread 16 4 (by decide)]
  rfl

theorem long_of_ofPacket? (h : Summary.ofPacket? packet = some s) : 20 ≤ packet.length := by
  simp only [Summary.ofPacket?, Option.bind_eq_bind, Option.bind_none, Option.bind_eq_some_iff,
    Option.ite_none_left_eq_some, Prod.exists] at h
  obtain ⟨_, afterFront, hfront, -, _, afterService, hservice, _, afterLength, hlength, _, afterId,
    hid, _, afterFragment, hfragment, _, afterLife, hlife, _, afterProtocol, hprotocol, _,
    afterChecksum, hchecksum, _, afterSource, hsource, _, afterDestination, hdestination, -⟩ := h
  -- ten fields were read one after the other, and they take twenty bytes
  rw [Bytes.length_of_readBig? hfront, Bytes.length_of_readBig? hservice,
    Bytes.length_of_readBig? hlength, Bytes.length_of_readBig? hid,
    Bytes.length_of_readBig? hfragment, Bytes.length_of_readBig? hlife,
    Bytes.length_of_readBig? hprotocol, Bytes.length_of_readBig? hchecksum,
    Bytes.length_of_readBig? hsource, Bytes.length_of_readBig? hdestination]
  omega

theorem ofPacket?_of_hasHeader (h : HasHeader packet) :
    Summary.ofPacket? packet = some (summaryOf packet) := by
  have hversion := h.version
  have hwords := h.words
  rw [ofPacket?_of_long h.long, if_neg]
  simpa using ⟨hversion, hwords⟩

theorem hasHeader_of_ofPacket? (h : Summary.ofPacket? packet = some s) : HasHeader packet := by
  have hlong := long_of_ofPacket? h
  rw [ofPacket?_of_long hlong] at h
  split_ifs at h with hforeign
  obtain ⟨hversion, hwords⟩ : numberAt packet 0 1 / 16 = 4 ∧ 5 ≤ headerWords packet := by
    simpa using hforeign
  exact ⟨hlong, hversion, hwords⟩

theorem exists_ofPacket?_iff : (∃ s, Summary.ofPacket? packet = some s) ↔ HasHeader packet :=
  ⟨fun ⟨_, h⟩ => hasHeader_of_ofPacket? h, fun h => ⟨_, ofPacket?_of_hasHeader h⟩⟩

theorem eq_summaryOf (h : Summary.ofPacket? packet = some s) : s = summaryOf packet := by
  rw [ofPacket?_of_hasHeader (hasHeader_of_ofPacket? h)] at h
  exact (Option.some.inj h).symm

structure LooksLike (other packet : Bytes) : Prop where
  length : other.length = packet.length
  bytes : ∀ i, IsSeen packet i → other[i]? = packet[i]?

namespace LooksLike

theorem numberAt_eq (h : LooksLike other packet) (hwithin : offset + width ≤ 20) :
    numberAt other offset width = numberAt packet offset width :=
  numberAt_congr fun i _ hi => h.bytes i (.inl (hi.trans_le hwithin))

theorem headerWords_eq (h : LooksLike other packet) : headerWords other = headerWords packet := by
  rw [headerWords, headerWords, h.numberAt_eq (by decide)]

theorem hasHeader_congr (h : LooksLike other packet) : HasHeader other ↔ HasHeader packet := by
  have hfront : numberAt other 0 1 = numberAt packet 0 1 := h.numberAt_eq (by decide)
  rw [hasHeader_iff, hasHeader_iff, h.length, hfront, h.headerWords_eq]

theorem hasPorts_congr (h : LooksLike other packet) : HasPorts other ↔ HasPorts packet := by
  have hprotocol : numberAt other 9 1 = numberAt packet 9 1 := h.numberAt_eq (by decide)
  have hfragment : numberAt other 6 2 = numberAt packet 6 2 := h.numberAt_eq (by decide)
  rw [hasPorts_iff, hasPorts_iff, h.length, hprotocol, hfragment, h.headerWords_eq]

theorem portsOf_eq (h : LooksLike other packet) : portsOf other = portsOf packet := by
  by_cases hports : HasPorts packet
  · have hport (offset : Nat) (hlow : 4 * headerWords packet ≤ offset)
        (hhigh : offset + 2 ≤ 4 * headerWords packet + 4) :
        numberAt other offset 2 = numberAt packet offset 2 :=
      numberAt_congr fun i hi hi' =>
        h.bytes i (.inr ⟨hports, hlow.trans hi, hi'.trans_le hhigh⟩)
    rw [portsOf_of_hasPorts hports, portsOf_of_hasPorts (h.hasPorts_congr.2 hports),
      h.headerWords_eq, hport _ le_rfl (by omega), hport _ (Nat.le_add_right _ _) le_rfl]
  · rw [portsOf_of_not_hasPorts hports, portsOf_of_not_hasPorts (mt h.hasPorts_congr.1 hports)]

theorem summaryOf_eq (h : LooksLike other packet) : summaryOf other = summaryOf packet := by
  have hfixed {offset width : Nat} (hwithin : offset + width ≤ 20) :
      numberAt other offset width = numberAt packet offset width := h.numberAt_eq hwithin
  simp only [summaryOf, h.portsOf_eq, hfixed, Nat.reduceAdd, Nat.reduceLeDiff]

theorem ofPacket?_eq (h : LooksLike other packet) :
    Summary.ofPacket? other = Summary.ofPacket? packet := by
  by_cases hheader : HasHeader packet
  · rw [ofPacket?_of_hasHeader hheader, ofPacket?_of_hasHeader (h.hasHeader_congr.2 hheader),
      h.summaryOf_eq]
  · have hnone {unknown : Bytes} (hno : ¬ HasHeader unknown) :
        Summary.ofPacket? unknown = none :=
      Option.eq_none_iff_forall_ne_some.2 fun _ hs => hno (hasHeader_of_ofPacket? hs)
    rw [hnone hheader, hnone (mt h.hasHeader_congr.1 hheader)]

end LooksLike

/-- Exactly the packets with a header have a summary, which tells each number that stands at its
place and the ports if there are any, whatever stands elsewhere. -/
theorem summary_exact (packet : Bytes) :
    ((∃ s, Summary.ofPacket? packet = some s) ↔ HasHeader packet) ∧
      (∀ s, Summary.ofPacket? packet = some s → s.Describes packet) ∧
      ∀ other, LooksLike other packet →
        Summary.ofPacket? other = Summary.ofPacket? packet := by
  refine ⟨exists_ofPacket?_iff, ?_, fun other => LooksLike.ofPacket?_eq⟩
  intro s hs
  rw [eq_summaryOf hs]
  exact describes_summaryOf packet

/-- A datagram of UDP that must not be fragmented, with four bytes of options and eight of data. -/
def samplePacket : Bytes :=
  [0x46, 0, 0, 40, 0, 1, 0x40, 0, 64, 17, 0, 0, 10, 0, 0, 1, 10, 0, 0, 2, 1, 1, 1, 1,
    0x30, 0x39, 0, 53, 0, 16, 0, 0, 1, 2, 3, 4, 5, 6, 7, 8]

def alteredPacket : Bytes :=
  samplePacket.take 20 ++ [148, 4, 0, 0] ++ (samplePacket.drop 24).take 4 ++ List.replicate 12 255

def sampleSummary : Summary where
  source := ⟨0x0A000001⟩
  destination := ⟨0x0A000002⟩
  protocol := 17
  length := 40
  sourcePort := some 12345
  destinationPort := some 53

theorem summary_exact_samplePacket :
    HasHeader samplePacket ∧ HasPorts samplePacket ∧ LooksLike alteredPacket samplePacket ∧
      alteredPacket ≠ samplePacket ∧ sampleSummary.Describes samplePacket ∧
      Summary.ofPacket? alteredPacket = some sampleSummary := by
  have hports : HasPorts samplePacket := ⟨by decide, by decide, by decide⟩
  have hwords : headerWords samplePacket = 6 := by decide
  have hlike : LooksLike alteredPacket samplePacket := by
    refine ⟨by decide, ?_⟩
    have hsame : ∀ i < 28, i < 20 ∨ 24 ≤ i → alteredPacket[i]? = samplePacket[i]? := by decide
    rintro i (hfront | ⟨-, hlow, hhigh⟩)
    · exact hsame i (by omega) (.inl hfront)
    · rw [hwords] at hlow hhigh
      exact hsame i hhigh (.inr hlow)
  have hsample : Summary.ofPacket? samplePacket = some sampleSummary := by decide
  obtain ⟨hsome, hdescribes, hsame⟩ := summary_exact samplePacket
  exact ⟨hsome.1 ⟨_, hsample⟩, hports, hlike, by decide, hdescribes _ hsample,
    (hsame _ hlike).trans hsample⟩

end Ipv4

end Netfilter
