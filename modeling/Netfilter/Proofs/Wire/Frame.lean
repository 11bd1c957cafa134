import Netfilter.Proofs.Wire.Attribute
import Netfilter.Wire.Frame

/-!
# Frames with room

As long as there is room, a frame is what was put in front and zero bytes behind
it: an entry adds its padded form to the front, and an attribute its written form.
-/

namespace Netfilter.Frame

def ofFront (size : Nat) (front : Bytes) : Frame :=
  ⟨front ++ List.replicate (size - front.length) 0, front.length⟩

variable {size : Nat} {front : Bytes}

@[simp] theorem filled_ofFront : (ofFront size front).filled = front := List.take_left

@[simp] theorem used_ofFront : (ofFront size front).used = front.length := rfl

theorem length_bytes_ofFront (h : front.length ≤ size) :
    (ofFront size front).bytes.length = size := by
  simp only [ofFront, List.length_append, List.length_replicate]
  omega

theorem reserve_eq_ofFront {used : Nat} (h : used ≤ size) :
    reserve size used = ofFront size (List.replicate used 0) := by
  simp only [reserve, ofFront, List.length_replicate, List.replicate_append_replicate]
  rw [Nat.add_sub_cancel' h]

theorem write_bytes_ofFront (data : Bytes) :
    ((ofFront size front).write front.length data).bytes =
      front ++ data ++ List.replicate (size - front.length - data.length) 0 := by
  simp only [write, ofFront, List.take_left, ← List.drop_drop, List.drop_left,
    List.drop_replicate]

theorem push_ofFront (haligned : front.length % 4 = 0) {data : Bytes}
    (hroom : front.length + Bytes.alignUp data.length ≤ size) :
    (ofFront size front).push data = ofFront size (front ++ Bytes.padded data) := by
  have hle := Bytes.le_alignUp data.length
  have hlength : (front ++ Bytes.padded data).length = front.length + Bytes.alignUp data.length := by
    rw [List.length_append, Bytes.length_padded]
  have hused : ((ofFront size front).push data).used = (front ++ Bytes.padded data).length := by
    rw [hlength]
    exact Bytes.alignUp_add_of_mod_eq_zero haligned _
  have hbytes : ((ofFront size front).push data).bytes =
      (ofFront size (front ++ Bytes.padded data)).bytes := by
    have hblank : size - front.length - data.length = (Bytes.alignUp data.length - data.length) +
        (size - (front.length + Bytes.alignUp data.length)) := by omega
    change ((ofFront size front).write front.length data).bytes = _
    rw [write_bytes_ofFront, ofFront, hlength, hblank, ← List.replicate_append_replicate,
      Bytes.padded]
    simp only [List.append_assoc]
  exact Frame.mk.injEq .. ▸ ⟨hbytes, hused⟩

theorem pushAttribute_ofFront (haligned : front.length % 4 = 0) {a : Attribute} (hfits : a.Fits)
    (hroom : front.length + a.encode.length ≤ size) :
    (ofFront size front).pushAttribute a.rawType a.value = .ok (ofFront size (front ++ a.encode)) := by
  let header : Attribute.Header := ⟨UInt16.ofNat a.size, a.rawType⟩
  have hheader : header.encode.length = 4 := header.length_encode
  have hencode : a.encode = header.encode ++ Bytes.padded a.value := a.encode_eq_append hfits
  have hvalue : front.length + 4 + Bytes.alignUp a.value.length ≤ size := by
    rw [hencode, List.length_append, Bytes.length_padded, hheader] at hroom
    omega
  have hfirst : (ofFront size front).push header.encode = ofFront size (front ++ header.encode) := by
    rw [push_ofFront haligned (by rw [hheader]; exact (Nat.le_add_right _ _).trans hvalue),
      Bytes.padded_of_mod_eq_zero (by rw [hheader])]
  have hsecond : (ofFront size (front ++ header.encode)).push a.value =
      ofFront size (front ++ a.encode) := by
    rw [push_ofFront (by rw [List.length_append, hheader]; omega)
      (by rw [List.length_append, hheader]; exact hvalue), hencode, List.append_assoc]
  have hsize : Attribute.headerSize + a.value.length < 65536 := hfits.size_lt
  rw [pushAttribute, Attribute.Header.forValue, if_pos hsize]
  change Except.ok (((ofFront size front).push header.encode).push a.value) = _
  rw [hfirst, hsecond]

/-- What was set aside can be written at last. -/
theorem write_zero_ofFront {aside data rest : Bytes} (h : data.length = aside.length) :
    (ofFront size (aside ++ rest)).write 0 data = ofFront size (data ++ rest) := by
  simp only [write, ofFront, List.take_zero, List.nil_append, Nat.zero_add, h, List.length_append,
    List.append_assoc, List.drop_left]

end Netfilter.Frame
