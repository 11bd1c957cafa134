import Netfilter.Proofs.Wire.Attribute
import Netfilter.Proofs.Wire.Message
import Netfilter.Wire.Draft

/-!
# Drafts grow by whole attributes

As long as its body is a multiple of four long, a draft grows by the written
form of each attribute that is added, and by the written form of one attribute
for each nest that is closed. A finished draft is read back as one message.
-/

namespace Netfilter

theorem FamilyHeader.read_encode_append (h : FamilyHeader) (rest : Bytes) :
    FamilyHeader.read (h.encode ++ rest) = .ok (h, rest) := by
  change Except.ok (FamilyHeader.mk h.family h.version
    (UInt16.ofNat (Bytes.ofBig (Bytes.big 2 h.resource.toNat))), rest) = .ok (h, rest)
  rw [Bytes.ofBig_big_word16]

namespace Draft

def Aligned (d : Draft) : Prop := d.body.length % 4 = 0

def extend (d : Draft) (bs : Bytes) : Draft := { d with body := d.body ++ bs }

@[simp] theorem body_extend (d : Draft) (bs : Bytes) : (d.extend bs).body = d.body ++ bs := rfl

@[simp] theorem extend_nil (d : Draft) : d.extend [] = d := by simp [extend]

theorem extend_extend (d : Draft) (bs cs : Bytes) :
    (d.extend bs).extend cs = d.extend (bs ++ cs) := by simp [extend, List.append_assoc]

theorem Aligned.extend {d : Draft} (h : d.Aligned) {bs : Bytes} (hb : bs.length % 4 = 0) :
    (d.extend bs).Aligned := by
  unfold Aligned at *
  rw [body_extend, List.length_append]
  omega

theorem aligned_netfilter (subsystem operation : UInt8) (flags : UInt16) (family : UInt8)
    (resource : UInt16) : (netfilter subsystem operation flags family resource).Aligned := by
  simp [Aligned, netfilter, FamilyHeader.encode]

theorem append_eq_extend {d : Draft} (h : d.Aligned) (bs : Bytes) :
    d.append bs = d.extend (Bytes.padded bs) := by
  unfold append extend
  rw [Bytes.padded_append h]

theorem add_of_fits {d : Draft} (h : d.Aligned) (a : Attribute) (hf : a.Fits) :
    d.add a.rawType a.value = .ok (d.extend a.encode) := by
  have hs : Attribute.headerSize + a.value.length < 65536 := hf.size_lt
  rw [add, Attribute.Header.forValue, if_pos hs, Attribute.encode_eq_padded a hf,
    ← append_eq_extend h]
  rfl

theorem short_of_fits {d : Draft} (h : d.Aligned) (a : Attribute) (hf : a.Fits) :
    d.short a.rawType a.value = d.extend a.encode := by
  rw [short, append_eq_extend h, Attribute.encode_eq_padded a hf]
  rfl

theorem add_of_not_fits (d : Draft) (a : Attribute) (hf : ¬ a.Fits) :
    d.add a.rawType a.value =
      .error (.invalidAttribute (.oversized a.kind a.value.length)) := by
  have hs : ¬ Attribute.headerSize + a.value.length < 65536 := by
    unfold Attribute.Fits Attribute.maxValue at hf
    unfold Attribute.headerSize at *
    omega
  rw [add, Attribute.Header.forValue, if_neg hs]
  rfl

theorem openNest_aligned {d : Draft} (h : d.Aligned) (rawType : UInt16) :
    (d.openNest rawType).1.Aligned := by
  unfold Aligned at *
  simp only [openNest, Attribute.Header.encode, List.length_append, Bytes.length_little]
  omega

theorem closeNest_of_lt {d : Draft} {nest : Nest} (h : d.body.length - nest.offset < 65536) :
    d.closeNest nest = .ok { d with body := Bytes.padded (d.body.take nest.offset ++
      Bytes.little 2 (d.body.length - nest.offset) ++ d.body.drop (nest.offset + 2)) } :=
  if_pos h

theorem closeNest_of_not_lt {d : Draft} {nest : Nest} (h : ¬ d.body.length - nest.offset < 65536) :
    d.closeNest nest = .error (.invalidAttribute (.oversizedNest (d.body.length - nest.offset))) :=
  if_neg h

theorem length_openNest_extend (d : Draft) (rawType : UInt16) (content : Bytes) :
    ((d.openNest rawType).1.extend content).body.length - (d.openNest rawType).2.offset =
      Attribute.headerSize + content.length := by
  simp only [openNest, body_extend, Attribute.Header.encode, List.length_append,
    Bytes.length_little, Attribute.headerSize]
  omega

/-- Closing a nest turns its header and all that was appended since into one attribute. -/
theorem closeNest_of_fits {d : Draft} (h : d.Aligned) (rawType : UInt16) {content : Bytes}
    (hf : content.length ≤ Attribute.maxValue) :
    ((d.openNest rawType).1.extend content).closeNest (d.openNest rawType).2 =
      .ok (d.extend (Attribute.encode
        ⟨rawType ||| UInt16.ofNat Attribute.nestedBit, content⟩)) := by
  let a : Attribute := ⟨rawType ||| UInt16.ofNat Attribute.nestedBit, content⟩
  have hbody : ((d.openNest rawType).1.extend content).body =
      d.body ++ (Bytes.little 2 0 ++ (Bytes.little 2 a.rawType.toNat ++ content)) := by
    change (d.body ++ (Bytes.little 2 0 ++ Bytes.little 2 a.rawType.toNat)) ++ content = _
    rw [List.append_assoc, List.append_assoc]
  have hlen := d.length_openNest_extend rawType content
  have hlt : Attribute.headerSize + content.length < 65536 := Attribute.Fits.size_lt (a := a) hf
  have hpatched : d.body ++ Bytes.little 2 a.size ++
      (d.body ++ (Bytes.little 2 0 ++ (Bytes.little 2 a.rawType.toNat ++ content))).drop
        (d.body.length + 2) =
      d.body ++ (Bytes.little 2 a.size ++ Bytes.little 2 a.rawType.toNat ++ content) := by
    rw [← List.drop_drop, List.drop_left, List.append_assoc, List.append_assoc]
    rfl
  rw [closeNest_of_lt (hlen ▸ hlt), hlen, hbody]
  change Except.ok { d with body := Bytes.padded (List.take d.body.length _ ++
    Bytes.little 2 a.size ++ List.drop (d.body.length + 2) _) } = _
  rw [List.take_left, hpatched, Bytes.padded_append h]
  rfl

theorem closeNest_of_not_fits (d : Draft) (rawType : UInt16) {content : Bytes}
    (hf : ¬ content.length ≤ Attribute.maxValue) :
    ((d.openNest rawType).1.extend content).closeNest (d.openNest rawType).2 =
      .error (.invalidAttribute (.oversizedNest (Attribute.headerSize + content.length))) := by
  have hlen := d.length_openNest_extend rawType content
  have hbig : ¬ Attribute.headerSize + content.length < 65536 := by
    unfold Attribute.maxValue at hf
    omega
  rw [closeNest_of_not_lt (hlen ▸ hbig), hlen]

def header (d : Draft) : Message.Header :=
  ⟨UInt32.ofNat d.size, d.type, d.flags, d.seq, d.port⟩

theorem finish_eq (d : Draft) : d.finish = d.header.encode ++ d.body := rfl

theorem length_finish (d : Draft) : d.finish.length = d.size := by
  rw [finish_eq, List.length_append, Message.Header.length_encode, size]

/-- The length a finished draft declares is its own. -/
theorem toNat_length_header {d : Draft} (h : d.size < 2 ^ 32) :
    d.header.length.toNat = d.finish.length := by
  rw [length_finish]
  change (UInt32.ofNat d.size).toNat = d.size
  rw [UInt32.toNat_ofNat', Nat.mod_eq_of_lt h]

theorem next_finish_append {d : Draft} (h : d.Aligned) (hs : d.size < 2 ^ 32) (rest : Bytes) :
    Message.next (d.finish ++ rest) = some (.ok ⟨d.header, d.body⟩, rest) := by
  have hlen : d.header.length.toNat = Message.headerSize + d.body.length :=
    (toNat_length_header hs).trans d.length_finish
  exact Message.next_encode_append ⟨d.header, d.body⟩ hlen h rest

theorem walk_finish {d : Draft} (h : d.Aligned) (hs : d.size < 2 ^ 32) :
    Message.walk d.finish = ⟨[⟨d.header, d.body⟩], none⟩ := by
  have hnext := next_finish_append h hs []
  rw [List.append_nil] at hnext
  rw [Message.walk_of_next_ok hnext, Message.walk_nil]

end Draft

end Netfilter
