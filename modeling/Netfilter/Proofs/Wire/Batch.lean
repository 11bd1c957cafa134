import Netfilter.Proofs.Wire.Message

/-!
# Messages in one datagram

Messages whose headers tell their lengths and which need no padding may be put
into one datagram: the walk takes them out again as they are.
-/

namespace Netfilter.Message

def encode (m : Message) : Bytes := m.header.encode ++ m.payload

def join (ms : List Message) : Bytes := ms.flatMap encode

/-- The header tells the length of the message, and that is a multiple of four. -/
structure Framed (m : Message) : Prop where
  length : m.header.length.toNat = headerSize + m.payload.length
  aligned : m.payload.length % 4 = 0

theorem walk_join {ms : List Message} (h : ∀ m ∈ ms, m.Framed) : walk (join ms) = ⟨ms, none⟩ := by
  induction ms with
  | nil => exact walk_nil
  | cons m ms ih =>
      have hm : m.Framed := h m List.mem_cons_self
      have hnext : next (join (m :: ms)) = some (.ok m, join ms) := by
        rw [join, List.flatMap_cons]
        exact next_encode_append m hm.length hm.aligned _
      rw [walk_of_next_ok hnext, ih fun m' hm' => h m' (List.mem_cons_of_mem m hm')]

/-- A message takes at least its header off the datagram. -/
theorem length_of_next {data rest : Bytes} {m : Message} (h : next data = some (.ok m, rest)) :
    rest.length + headerSize ≤ data.length := by
  obtain ⟨-, hcover, hlong, -, rfl⟩ := next_eq_ok_iff.1 h
  have halign := Bytes.le_alignUp m.header.length.toNat
  rw [List.length_drop]
  omega

end Netfilter.Message
