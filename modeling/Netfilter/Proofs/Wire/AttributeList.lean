import Netfilter.Proofs.Wire.Attribute
import Netfilter.Proofs.Wire.Framing

/-!
# The grammar of attribute lists

An attribute is written as its length, its type and its value. The byte strings
that are read without a defect are exactly the lists of such attributes, each
padded to a multiple of four, of which the last may lack some padding. Of every
other byte string, the longest padded list at its front is read, and then one
defect is met.
-/

namespace Netfilter.Attribute

open Reading (left answer)

theorem Header.decode_eq_ok_iff {data : Bytes} {h : Header} :
    Header.decode data = .ok h ↔ h.encode <+: data := by
  constructor
  · intro hd
    match data with
    | l₀ :: l₁ :: t₀ :: t₁ :: rest =>
        obtain rfl := Except.ok.inj hd
        rw [encode, Bytes.little_ofLittle_word16 rfl, Bytes.little_ofLittle_word16 rfl]
        exact ⟨rest, rfl⟩
    | [] | [_] | [_, _] | [_, _, _] => cases hd
  · rintro ⟨rest, rfl⟩
    exact h.decode_encode_append rest

theorem exists_defect_of_next_error {data rest : Bytes} {e : Error}
    (h : next data = some (.error e, rest)) : ∃ defect, e = .invalidAttribute defect := by
  unfold next at h
  split_ifs at h with hempty
  cases hd : Header.decode data with
  | error e' =>
      simp only [hd, Option.some.injEq, Prod.mk.injEq, Except.error.injEq] at h
      exact ⟨_, h.1.symm⟩
  | ok hdr =>
      simp only [hd] at h
      split_ifs at h
      · simp only [Option.some.injEq, Prod.mk.injEq, Except.error.injEq] at h
        exact ⟨_, h.1.symm⟩
      · simp at h
      · simp only [Option.some.injEq, Prod.mk.injEq, Except.error.injEq] at h
        exact ⟨_, h.1.symm⟩

theorem next_eq_none_iff {data : Bytes} : next data = none ↔ data = [] := by
  constructor
  · intro h
    by_contra hne
    have hempty : data.isEmpty = false := by simpa using hne
    simp only [next, hempty, Bool.false_eq_true, if_false] at h
    cases hd : Header.decode data with
    | error e => simp [hd] at h
    | ok hdr =>
        simp only [hd] at h
        split_ifs at h
  · rintro rfl
    rfl

/-- A length of two bytes that covers header and value, a type of two bytes, and the value. -/
def framing : Framing Attribute where
  write a := Bytes.little 2 a.size ++ Bytes.little 2 a.rawType.toNat ++ a.value
  Sound := Fits
  write_ne_nil a := by
    intro h
    have hlength := congrArg List.length h
    simp at hlength

theorem length_write (a : Attribute) : (framing.write a).length = a.size := by
  simp only [framing, List.length_append, Bytes.length_little, size, headerSize]

theorem write_eq_append {a : Attribute} (h : a.Fits) :
    framing.write a = Header.encode ⟨UInt16.ofNat a.size, a.rawType⟩ ++ a.value := by
  have hs : (UInt16.ofNat a.size).toNat = a.size := by
    rw [UInt16.toNat_ofNat', Nat.mod_eq_of_lt h.size_lt]
  simp only [framing, Header.encode, hs]

theorem front_of_next {data rest : Bytes} {a : Attribute} (hnext : next data = some (.ok a, rest)) :
    a.Fits ∧ framing.write a <+: data ∧ rest = data.drop (framing.space a) := by
  have hfits := fits_of_next hnext
  obtain ⟨h, hdec, hcover, hlong, rfl, rfl⟩ := next_eq_ok_iff.1 hnext
  obtain ⟨after, rfl⟩ := Header.decode_eq_ok_iff.1 hdec
  have henc : h.encode.length = headerSize := h.length_encode
  rw [List.length_append, henc] at hlong
  have hvalue : ((h.encode ++ after).drop headerSize).take (h.length.toNat - headerSize) =
      after.take (h.length.toNat - headerSize) := by
    rw [← henc, List.drop_left]
  have hsize : size ⟨h.rawType, after.take (h.length.toNat - headerSize)⟩ = h.length.toNat := by
    unfold size
    rw [List.length_take]
    omega
  rw [hvalue] at hfits ⊢
  refine ⟨hfits, ?_, ?_⟩
  · rw [write_eq_append hfits, hsize, UInt16.ofNat_toNat, List.prefix_append_right_inj]
    exact List.take_prefix _ _
  · rw [Framing.space, length_write, hsize]

theorem next_of_front {data : Bytes} {a : Attribute} (hfits : a.Fits)
    (hfront : framing.write a <+: data) :
    next data = some (.ok a, data.drop (framing.space a)) := by
  obtain ⟨after, rfl⟩ := hfront
  let h : Header := ⟨UInt16.ofNat a.size, a.rawType⟩
  have hsize : h.length.toNat = a.size := by
    rw [UInt16.toNat_ofNat', Nat.mod_eq_of_lt hfits.size_lt]
  have henc : h.encode.length = headerSize := h.length_encode
  have hlength := length_write a
  have hwrite : framing.write a ++ after = h.encode ++ (a.value ++ after) := by
    rw [write_eq_append hfits, List.append_assoc]
  refine next_eq_ok_iff.2 ⟨h, ?_, ?_, ?_, ?_, ?_⟩
  · exact Header.decode_eq_ok_iff.2 (hwrite ▸ List.prefix_append _ _)
  · rw [hsize, size]
    exact Nat.le_add_right _ _
  · rw [hsize, List.length_append, hlength]
    exact Nat.le_add_right _ _
  · rw [hsize, size, Nat.add_sub_cancel_left, hwrite, ← henc, List.drop_left, List.take_left]
  · rw [Framing.space, hlength, hsize]

theorem obeys_next : framing.Obeys next where
  none_iff := next_eq_none_iff
  spent h := (rest_of_next_error h).2
  ok_iff := by
    refine ⟨front_of_next, ?_⟩
    rintro ⟨hfits, hfront, rfl⟩
    exact next_of_front hfits hfront

theorem next_append {data rest : Bytes} {a : Attribute} (hwords : data.length % 4 = 0)
    (h : next data = some (.ok a, rest)) (more : Bytes) :
    next (data ++ more) = some (.ok a, rest ++ more) := by
  obtain ⟨hfits, hfront, rfl⟩ := obeys_next.ok_iff.1 h
  have hroom : framing.space a ≤ data.length := by
    have hle := hfront.length_le
    unfold Framing.space Bytes.alignUp
    omega
  rw [obeys_next.ok_iff, List.drop_append_of_le_length hroom]
  exact ⟨hfits, hfront.trans (List.prefix_append _ _), rfl⟩

/-- What is read of whole words without a defect is read again when more stands behind them. -/
theorem walk_append {data : Bytes} (hwords : data.length % 4 = 0) (more : Bytes)
    (hgood : (walk data).fault = none) :
    walk (data ++ more) = ⟨(walk data).items ++ (walk more).items, (walk more).fault⟩ := by
  induction data using walk.induct with
  | case1 data hnext =>
      obtain rfl := next_eq_none_iff.1 hnext
      rw [walk_nil, List.nil_append, List.nil_append]
  | case2 data e rest hnext =>
      rw [walk_of_next_error hnext] at hgood
      cases hgood
  | case3 data a rest hnext ih =>
      have hrest : rest.length % 4 = 0 := by
        obtain ⟨-, -, rfl⟩ := obeys_next.ok_iff.1 hnext
        have hspace : framing.space a % 4 = 0 := Bytes.alignUp_mod _
        rw [List.length_drop]
        omega
      rw [walk_of_next_ok hnext] at hgood ⊢
      rw [walk_of_next_ok (next_append hwords hnext more), ih hrest hgood, List.cons_append]

/-- The first calls give the attributes of a list, and all later ones nothing. -/
theorem answer_of_listed {as : List Attribute} {data : Bytes} (h : framing.Listed as data)
    (n : Nat) : answer next data n = (as.map .ok)[n]? := by
  have hend : next [] = none := rfl
  rw [obeys_next.answer_eq h.begins (fun a rest => by simp [hend]) n, hend, Option.map_none,
    Option.toList_none, List.append_nil]

/-- What is not a list begins with a longest padded one, and a defect comes next. -/
theorem exists_longest_of_not_listed {data : Bytes} (h : ¬ ∃ as, framing.Listed as data) :
    ∃ as front rest defect, data = front ++ rest ∧ framing.Padded as front ∧
      (∀ bs front', front' <+: data → framing.Padded bs front' → bs <+: as) ∧
      ∀ n, answer next data n = (as.map .ok ++ [.error (.invalidAttribute defect)])[n]? := by
  obtain ⟨as, rest, hbegins, hstuck⟩ := obeys_next.exists_longest data
  have hne : rest ≠ [] := by
    rintro rfl
    exact h ⟨as, hbegins.listed rfl⟩
  obtain ⟨front, hdata, hpadded⟩ := hbegins.padded hne
  have hanswer := obeys_next.answer_eq hbegins hstuck
  cases hnext : next rest with
  | none => exact absurd (next_eq_none_iff.1 hnext) hne
  | some taken =>
      obtain ⟨e | a, later⟩ := taken
      · obtain ⟨defect, rfl⟩ := exists_defect_of_next_error hnext
        refine ⟨as, front, rest, defect, hdata, hpadded, ?_, ?_⟩
        · rintro bs front' ⟨rest', rfl⟩ hbs
          exact obeys_next.isPrefix hbegins hstuck (hbs.begins rest')
        · intro n
          rw [hanswer n, hnext]
          rfl
      · exact absurd hnext (hstuck a later)

theorem exists_offset_of_answer {data : Bytes} {n : Nat} {a : Attribute}
    (h : answer next data n = some (.ok a)) :
    ∃ offset, offset % 4 = 0 ∧ offset + a.size ≤ data.length ∧
      left next data n = data.drop offset ∧ framing.write a <+: data.drop offset := by
  obtain ⟨as, rest, hbegins, hstuck⟩ := obeys_next.exists_longest data
  have ha := (obeys_next.answer_eq_ok_iff hbegins hstuck).1 h
  obtain ⟨hn, -⟩ := List.getElem?_eq_some_iff.1 ha
  have hfront := (hbegins.front_of_getElem? ha).2
  refine ⟨framing.position as n, framing.position_mod as n, ?_,
    obeys_next.left_eq_drop hbegins (Nat.le_of_lt hn), hfront⟩
  have hle := hfront.length_le
  have hpos := List.length_pos_of_ne_nil (framing.write_ne_nil a)
  rw [length_write] at hle hpos
  rw [List.length_drop] at hle
  omega

/-- Exactly the lists of attributes are read without a defect, and just as they were written. All
else is read as far as it is a list with all padding; then there is one defect, and no more. -/
theorem read_iff_listed (data : Bytes) :
    ((∀ n e, answer next data n ≠ some (.error e)) ↔ ∃ as, framing.Listed as data) ∧
      (∀ as, framing.Listed as data → ∀ n, answer next data n = (as.map .ok)[n]?) ∧
      ((¬ ∃ as, framing.Listed as data) →
        ∃ as front rest defect, data = front ++ rest ∧ framing.Padded as front ∧
          (∀ bs front', front' <+: data → framing.Padded bs front' → bs <+: as) ∧
          ∀ n, answer next data n = (as.map .ok ++ [.error (.invalidAttribute defect)])[n]?) ∧
      ∀ n a, answer next data n = some (.ok a) →
        ∃ offset, offset % 4 = 0 ∧ offset + a.size ≤ data.length ∧
          left next data n = data.drop offset ∧
          (data.drop offset).take headerSize =
            Bytes.little 2 a.size ++ Bytes.little 2 a.rawType.toNat ∧
          (data.drop (offset + headerSize)).take (a.size - headerSize) = a.value := by
  refine ⟨⟨?_, ?_⟩, fun as => answer_of_listed, exists_longest_of_not_listed, ?_⟩
  · intro hgood
    by_contra hno
    obtain ⟨as, -, -, defect, -, -, -, hanswer⟩ := exists_longest_of_not_listed hno
    apply hgood as.length (.invalidAttribute defect)
    rw [hanswer]
    simp
  · rintro ⟨as, has⟩ n e he
    rw [answer_of_listed has] at he
    simp at he
  · intro n a ha
    obtain ⟨offset, hmod, hlong, hleft, after, hafter⟩ := exists_offset_of_answer ha
    have hheader : (Bytes.little 2 a.size ++ Bytes.little 2 a.rawType.toNat).length = headerSize := by
      simp [headerSize]
    have hdata : data.drop offset =
        (Bytes.little 2 a.size ++ Bytes.little 2 a.rawType.toNat) ++ (a.value ++ after) := by
      rw [← hafter, ← List.append_assoc]
      rfl
    refine ⟨offset, hmod, hlong, hleft, ?_, ?_⟩
    · rw [hdata, ← hheader, List.take_left]
    · rw [← List.drop_drop, hdata, ← hheader, List.drop_left, hheader, size,
        Nat.add_sub_cancel_left, List.take_left]

end Netfilter.Attribute
