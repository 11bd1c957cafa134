import Netfilter.Proofs.Bytes
import Netfilter.Wire.Attribute

/-!
# Attributes read back

An attribute whose length fits its header is the first one taken off its
written form, and what follows it is all that is left.
-/

namespace Netfilter.Attribute

def Fits (a : Attribute) : Prop := a.value.length ≤ maxValue

instance (a : Attribute) : Decidable a.Fits := inferInstanceAs (Decidable (_ ≤ _))

theorem Fits.size_lt {a : Attribute} (h : a.Fits) : a.size < 65536 := by
  unfold Fits maxValue headerSize at h
  unfold size headerSize
  omega

theorem length_encode (a : Attribute) : a.encode.length = paddedSize a.value.length := by
  unfold encode
  rw [Bytes.length_padded]
  simp only [List.length_append, Bytes.length_little, paddedSize, headerSize]

theorem encode_mod (a : Attribute) : a.encode.length % 4 = 0 := by
  rw [length_encode]
  exact Bytes.alignUp_mod _

theorem Header.length_encode (h : Header) : h.encode.length = headerSize := by
  rw [encode, List.length_append, Bytes.length_little, Bytes.length_little, headerSize]

theorem Header.decode_encode_append (h : Header) (rest : Bytes) :
    Header.decode (h.encode ++ rest) = .ok h := by
  change Except.ok (Header.mk (UInt16.ofNat (Bytes.ofLittle (Bytes.little 2 h.length.toNat)))
    (UInt16.ofNat (Bytes.ofLittle (Bytes.little 2 h.rawType.toNat)))) = .ok h
  rw [Bytes.ofLittle_little_word16, Bytes.ofLittle_little_word16]

theorem encode_eq_padded (a : Attribute) (h : a.Fits) :
    a.encode = Bytes.padded (Header.encode ⟨UInt16.ofNat a.size, a.rawType⟩ ++ a.value) := by
  have hs : (UInt16.ofNat a.size).toNat = a.size := by
    rw [UInt16.toNat_ofNat', Nat.mod_eq_of_lt h.size_lt]
  simp only [encode, Header.encode, hs]

theorem encode_eq_append (a : Attribute) (h : a.Fits) :
    a.encode = Header.encode ⟨UInt16.ofNat a.size, a.rawType⟩ ++ Bytes.padded a.value := by
  rw [encode_eq_padded a h, Bytes.padded_append (by rw [Header.length_encode, headerSize])]

/-- What is taken off the front is described by the header there, which covers itself and does not
reach beyond the bytes at hand. -/
theorem next_eq_ok_iff {data rest : Bytes} {a : Attribute} :
    next data = some (.ok a, rest) ↔ ∃ h, Header.decode data = .ok h ∧
      headerSize ≤ h.length.toNat ∧ h.length.toNat ≤ data.length ∧
      a = ⟨h.rawType, (data.drop headerSize).take (h.length.toNat - headerSize)⟩ ∧
      rest = data.drop (Bytes.alignUp h.length.toNat) := by
  cases hd : Header.decode data with
  | error e =>
      unfold next
      split_ifs <;> simp [hd]
  | ok h =>
      have hne : data.isEmpty = false := by
        cases data with
        | nil => cases hd
        | cons b bs => rfl
      simp only [next, hne, hd, Bool.false_eq_true, if_false, Except.ok.injEq, exists_eq_left',
        Bytes.hasAtLeast_iff]
      split_ifs with hcover hlong
      · have hcover' : ¬ headerSize ≤ h.length.toNat := by omega
        simp [hcover']
      · have hcover' : headerSize ≤ h.length.toNat := by omega
        simp only [hcover', hlong, true_and, Option.some.injEq, Prod.mk.injEq, Except.ok.injEq]
        exact and_congr eq_comm eq_comm
      · simp [hlong]

/-- Nothing is left to be looked at after a defect. -/
theorem rest_of_next_error {data rest : Bytes} {e : Error}
    (h : next data = some (.error e, rest)) : data ≠ [] ∧ rest = [] := by
  unfold next at h
  split_ifs at h with hempty
  have hne : data ≠ [] := by simpa using hempty
  cases hd : Header.decode data with
  | error e' =>
      simp only [hd, Option.some.injEq, Prod.mk.injEq] at h
      exact ⟨hne, h.2.symm⟩
  | ok hdr =>
      simp only [hd] at h
      split_ifs at h
      · simp only [Option.some.injEq, Prod.mk.injEq] at h
        exact ⟨hne, h.2.symm⟩
      · simp at h
      · simp only [Option.some.injEq, Prod.mk.injEq] at h
        exact ⟨hne, h.2.symm⟩

theorem value_shortens {data rest : Bytes} {a : Attribute}
    (h : next data = some (.ok a, rest)) : a.value.length < data.length := by
  obtain ⟨hdr, -, hcover, hlong, rfl, -⟩ := next_eq_ok_iff.1 h
  unfold headerSize at *
  rw [List.length_take, List.length_drop]
  omega

/-- The length in the header has sixteen bits, so what is taken off can be written again. -/
theorem fits_of_next {data rest : Bytes} {a : Attribute} (h : next data = some (.ok a, rest)) :
    a.Fits := by
  obtain ⟨hdr, -, -, -, rfl, -⟩ := next_eq_ok_iff.1 h
  have hbits : hdr.length.toNat < 65536 := hdr.length.toNat_lt
  unfold Fits maxValue
  rw [List.length_take]
  omega

theorem next_encode_append (a : Attribute) (h : a.Fits) (rest : Bytes) :
    next (a.encode ++ rest) = some (.ok a, rest) := by
  let hdr : Header := ⟨UInt16.ofNat a.size, a.rawType⟩
  have hlen : hdr.encode.length = headerSize := hdr.length_encode
  have hplain : (hdr.encode ++ a.value).length = a.size := by
    rw [List.length_append, hlen, size]
  have hsize : hdr.length.toNat = a.size := by
    rw [UInt16.toNat_ofNat', Nat.mod_eq_of_lt h.size_lt]
  have hdata : a.encode ++ rest = Bytes.padded (hdr.encode ++ a.value) ++ rest := by
    rw [encode_eq_padded a h]
  have hfront : a.encode ++ rest = hdr.encode ++ (a.value ++
      (List.replicate (Bytes.alignUp a.size - a.size) 0 ++ rest)) := by
    rw [hdata, Bytes.padded, hplain, List.append_assoc, List.append_assoc]
  have hdec : Header.decode (a.encode ++ rest) = .ok hdr := by
    rw [hfront]
    exact hdr.decode_encode_append _
  have hlong : a.size ≤ (a.encode ++ rest).length := by
    rw [hfront, ← hplain]
    simp only [List.length_append]
    omega
  have hvalue : ((a.encode ++ rest).drop headerSize).take (a.size - headerSize) = a.value := by
    rw [hfront, ← hlen, List.drop_left, hlen]
    exact List.take_left' (by simp [size])
  have hrest : (a.encode ++ rest).drop (Bytes.alignUp a.size) = rest := by
    rw [hdata, ← hplain]
    exact Bytes.drop_padded_append _ rest
  refine next_eq_ok_iff.2 ⟨hdr, hdec, ?_, ?_, ?_, ?_⟩
  · rw [hsize, size]
    omega
  · rw [hsize]
    exact hlong
  · rw [hsize, hvalue]
  · rw [hsize, hrest]

theorem walk_of_next_none {data : Bytes} (h : next data = none) : walk data = ⟨[], none⟩ := by
  rw [walk]
  split <;> simp_all

theorem walk_of_next_error {data rest : Bytes} {e : Error} (h : next data = some (.error e, rest)) :
    walk data = ⟨[], some e⟩ := by
  rw [walk]
  split <;> simp_all

theorem walk_of_next_ok {data rest : Bytes} {a : Attribute} (h : next data = some (.ok a, rest)) :
    walk data = ⟨a :: (walk rest).items, (walk rest).fault⟩ := by
  rw [walk]
  split <;> simp_all

@[simp] theorem walk_nil : walk [] = ⟨[], none⟩ := walk_of_next_none rfl

theorem fits_of_mem_walk (data : Bytes) : ∀ a ∈ (walk data).items, a.Fits := by
  induction data using walk.induct with
  | case1 data hnext =>
      rw [walk_of_next_none hnext]
      exact nofun
  | case2 data e rest hnext =>
      rw [walk_of_next_error hnext]
      exact nofun
  | case3 data a rest hnext ih =>
      rw [walk_of_next_ok hnext]
      intro b hb
      rcases List.mem_cons.1 hb with rfl | hb
      · exact fits_of_next hnext
      · exact ih b hb

/-- The written forms of fitting attributes, one after the other, are walked without a defect. -/
theorem walk_flatMap_encode (as : List Attribute) (h : ∀ a ∈ as, a.Fits) :
    walk (as.flatMap encode) = ⟨as, none⟩ := by
  induction as with
  | nil => exact walk_nil
  | cons a as ih =>
      have ha : a.Fits := h a List.mem_cons_self
      have hrest := ih fun b hb => h b (List.mem_cons_of_mem a hb)
      rw [List.flatMap_cons, walk_of_next_ok (next_encode_append a ha _), hrest]

theorem flatMap_encode_mod (as : List Attribute) : (as.flatMap encode).length % 4 = 0 := by
  induction as with
  | nil => rfl
  | cons a as ih =>
      have ha := a.encode_mod
      rw [List.flatMap_cons, List.length_append]
      omega

end Netfilter.Attribute
