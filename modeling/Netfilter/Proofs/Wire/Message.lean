import Netfilter.Proofs.Bytes
import Netfilter.Wire.Message

/-!
# Messages taken off a datagram

What `Message.next` gives is described by the bytes it looks at, in all three
cases. `Opens data ms rest` says that `data` begins with the messages `ms` and
then goes on with `rest`; the walk gives the longest such beginning and the
defect of what is left. Cutting a datagram can only shorten that beginning.
-/

namespace Netfilter.Message

theorem Header.decode_encode_append (h : Header) (rest : Bytes) :
    Header.decode (h.encode ++ rest) = .ok h := by
  change Except.ok (Header.mk (UInt32.ofNat (Bytes.ofLittle (Bytes.little 4 h.length.toNat)))
    (UInt16.ofNat (Bytes.ofLittle (Bytes.little 2 h.type.toNat)))
    (UInt16.ofNat (Bytes.ofLittle (Bytes.little 2 h.flags.toNat)))
    (UInt32.ofNat (Bytes.ofLittle (Bytes.little 4 h.seq.toNat)))
    (UInt32.ofNat (Bytes.ofLittle (Bytes.little 4 h.port.toNat)))) = .ok h
  simp only [Bytes.ofLittle_little_word16, Bytes.ofLittle_little_word32]

theorem Header.length_encode (h : Header) : h.encode.length = headerSize := by
  simp [Header.encode, headerSize]

theorem Header.decode_eq_error_iff {data : Bytes} {e : Error} :
    Header.decode data = .error e ↔
      data.length < headerSize ∧ e = .truncated headerSize data.length := by
  by_cases h : headerSize ≤ data.length
  · have hlt : ¬ data.length < headerSize := by omega
    simp [Header.decode, h, hlt]
  · have hlt : data.length < headerSize := by omega
    simp only [Header.decode, Bytes.hasAtLeast_iff, h, if_false, Except.error.injEq, hlt, true_and]
    exact eq_comm

theorem Header.headerSize_le_of_decode {data : Bytes} {hdr : Header}
    (h : Header.decode data = .ok hdr) : headerSize ≤ data.length := by
  by_contra hlt
  rw [Header.decode_eq_error_iff.2 ⟨by omega, rfl⟩] at h
  cases h

theorem Header.decode_take {data : Bytes} {n : Nat} (h : headerSize ≤ n) :
    headerSize ≤ data.length → Header.decode (data.take n) = Header.decode data := by
  intro hl
  have hfield (offset k : Nat) (hk : offset + k ≤ n) :
      field (data.take n) offset k = field data offset k := by
    unfold field
    rw [List.drop_take, List.take_take, Nat.min_eq_left (by omega)]
  have hboth : headerSize ≤ (data.take n).length := by
    rw [List.length_take]
    exact Nat.le_min.2 ⟨h, hl⟩
  unfold headerSize at h hl hboth
  simp only [Header.decode, headerSize, (Bytes.hasAtLeast_iff _ _).2 hl,
    (Bytes.hasAtLeast_iff _ _).2 hboth, if_true]
  rw [hfield 0 4 (by omega), hfield 4 2 (by omega), hfield 6 2 (by omega), hfield 8 4 (by omega),
    hfield 12 4 (by omega)]

theorem next_eq_none_iff {data : Bytes} : next data = none ↔ data = [] := by
  unfold next
  split_ifs with h
  · simpa using h
  · have hne : data ≠ [] := by simpa using h
    cases hd : Header.decode data with
    | error e => simp [hne]
    | ok hdr =>
        simp only [hne, iff_false]
        split_ifs <;> simp

theorem next_eq_ok_iff {data rest : Bytes} {m : Message} :
    next data = some (.ok m, rest) ↔
      Header.decode data = .ok m.header ∧ headerSize ≤ m.header.length.toNat ∧
        m.header.length.toNat ≤ data.length ∧
        m.payload = (data.drop headerSize).take (m.header.length.toNat - headerSize) ∧
        rest = data.drop (Bytes.alignUp m.header.length.toNat) := by
  cases hd : Header.decode data with
  | error e =>
      unfold next
      split_ifs <;> simp [hd]
  | ok hdr =>
      have hne : data.isEmpty = false := by
        have := Header.headerSize_le_of_decode hd
        cases data with
        | nil => simp [headerSize] at this
        | cons b bs => rfl
      obtain ⟨mh, payload⟩ := m
      by_cases hn : headerSize ≤ hdr.length.toNat ∧ hdr.length.toNat ≤ data.length
      · simp only [next, hne, hd, hn, Bytes.hasAtLeast_iff, Bool.and_eq_true, decide_eq_true_eq,
          and_self, if_true, Bool.false_eq_true, if_false, Option.some.injEq, Prod.mk.injEq,
          Except.ok.injEq, Message.mk.injEq]
        constructor
        · rintro ⟨⟨rfl, rfl⟩, rfl⟩
          exact ⟨rfl, hn.1, hn.2, rfl, rfl⟩
        · rintro ⟨rfl, _, _, rfl, rfl⟩
          exact ⟨⟨rfl, rfl⟩, rfl⟩
      · simp only [next, hne, hd, hn, Bytes.hasAtLeast_iff, Bool.and_eq_true, decide_eq_true_eq,
          Bool.false_eq_true, if_false, Option.some.injEq, Prod.mk.injEq, reduceCtorEq, false_and,
          Except.ok.injEq, false_iff]
        rintro ⟨rfl, h₁, h₂, _⟩
        exact hn ⟨h₁, h₂⟩

/-- What is wrong with the bytes at the front of `data`, if no message can be taken off. -/
theorem next_eq_error_iff {data rest : Bytes} {e : Error} :
    next data = some (.error e, rest) ↔ data ≠ [] ∧ rest = [] ∧
      (data.length < headerSize ∧ e = .truncated headerSize data.length ∨
        ∃ hdr, Header.decode data = .ok hdr ∧
          (hdr.length.toNat < headerSize ∨ data.length < hdr.length.toNat) ∧
          e = .invalidMessage (.length hdr.length.toNat data.length)) := by
  by_cases hnil : data = []
  · simp [hnil, next]
  · have hne : data.isEmpty = false := by simpa using hnil
    cases hd : Header.decode data with
    | error e' =>
        obtain ⟨hlt, rfl⟩ := Header.decode_eq_error_iff.1 hd
        simp only [next, hne, hd, Bool.false_eq_true, if_false, Option.some.injEq, Prod.mk.injEq,
          Except.error.injEq, ne_eq, hnil, not_false_eq_true, true_and, hlt, reduceCtorEq,
          false_and, exists_false, or_false]
        constructor
        · rintro ⟨rfl, rfl⟩
          exact ⟨rfl, rfl⟩
        · rintro ⟨rfl, rfl⟩
          exact ⟨rfl, rfl⟩
    | ok hdr =>
        have hle : ¬ data.length < headerSize := by
          have := Header.headerSize_le_of_decode hd
          omega
        by_cases hn : headerSize ≤ hdr.length.toNat ∧ hdr.length.toNat ≤ data.length
        · have hbad : ¬ (hdr.length.toNat < headerSize ∨ data.length < hdr.length.toNat) := by omega
          simp [next, hne, hd, hnil, hle, hn, hbad]
        · have hbad : hdr.length.toNat < headerSize ∨ data.length < hdr.length.toNat := by omega
          simp only [next, hne, hd, hn, hnil, hle, hbad, Bytes.hasAtLeast_iff, Bool.and_eq_true,
            decide_eq_true_eq, Bool.false_eq_true, if_false, Option.some.injEq, Prod.mk.injEq,
            Except.error.injEq, ne_eq, not_false_eq_true, true_and, false_and, false_or,
            Except.ok.injEq, exists_eq_left']
          constructor
          · rintro ⟨rfl, rfl⟩
            exact ⟨rfl, rfl⟩
          · rintro ⟨rfl, rfl⟩
            exact ⟨rfl, rfl⟩

/-- A message whose header tells its length, and which needs no padding, is taken off whatever
begins with it. -/
theorem next_encode_append (m : Message)
    (hlen : m.header.length.toNat = headerSize + m.payload.length)
    (hal : m.payload.length % 4 = 0) (rest : Bytes) :
    next (m.header.encode ++ m.payload ++ rest) = some (.ok m, rest) := by
  have hsize : (m.header.encode ++ m.payload).length = m.header.length.toNat := by
    rw [List.length_append, Header.length_encode, hlen]
  have halign : Bytes.alignUp m.header.length.toNat = (m.header.encode ++ m.payload).length := by
    rw [hsize]
    apply Bytes.alignUp_of_mod_eq_zero
    rw [hlen, headerSize]
    omega
  refine next_eq_ok_iff.2 ⟨?_, ?_, ?_, ?_, ?_⟩
  · rw [List.append_assoc]
    exact m.header.decode_encode_append _
  · omega
  · rw [List.length_append, hsize]
    omega
  · rw [List.append_assoc, ← Header.length_encode m.header, List.drop_left, Header.length_encode,
      hlen, Nat.add_sub_cancel_left, List.take_left]
  · rw [halign, List.drop_left]

theorem walk_of_next_none {data : Bytes} (h : next data = none) : walk data = ⟨[], none⟩ := by
  rw [walk]
  split <;> simp_all

theorem walk_of_next_error {data rest : Bytes} {e : Error} (h : next data = some (.error e, rest)) :
    walk data = ⟨[], some e⟩ := by
  rw [walk]
  split <;> simp_all

theorem walk_of_next_ok {data rest : Bytes} {m : Message} (h : next data = some (.ok m, rest)) :
    walk data = ⟨m :: (walk rest).items, (walk rest).fault⟩ := by
  rw [walk]
  split <;> simp_all

@[simp] theorem walk_nil : walk [] = ⟨[], none⟩ := walk_of_next_none rfl

/-- `data` begins with the messages `ms` and then goes on with `left`. -/
inductive Opens : Bytes → List Message → Bytes → Prop
  | nil (data : Bytes) : Opens data [] data
  | cons {data rest left : Bytes} {m : Message} {ms : List Message}
      (first : next data = some (.ok m, rest)) (later : Opens rest ms left) :
      Opens data (m :: ms) left

namespace Opens

theorem walk_eq {data left : Bytes} {ms : List Message} (h : Opens data ms left) :
    walk data = ⟨ms ++ (walk left).items, (walk left).fault⟩ := by
  induction h with
  | nil data => rfl
  | cons first later ih => rw [walk_of_next_ok first, ih, List.cons_append]

/-- Every datagram can be opened up to the first message with a given property, or to its end. -/
theorem exists_until (p : Message → Prop) (data : Bytes) :
    ∃ ms left, Opens data ms left ∧ (∀ m ∈ ms, ¬ p m) ∧
      ∀ m rest, next left = some (.ok m, rest) → p m := by
  induction hn : data.length using Nat.strong_induction_on generalizing data with
  | _ n ih =>
      subst hn
      by_cases hp : ∀ m rest, next data = some (.ok m, rest) → p m
      · exact ⟨[], data, nil data, by simp, hp⟩
      · push Not at hp
        obtain ⟨m, rest, hnext, hm⟩ := hp
        obtain ⟨ms, left, hopens, hms, hleft⟩ := ih rest.length (next_shortens hnext) rest rfl
        refine ⟨m :: ms, left, cons hnext hopens, ?_, hleft⟩
        intro m' hm'
        rcases List.mem_cons.1 hm' with rfl | hm'
        · exact hm
        · exact hms m' hm'

end Opens

theorem next_of_next_take {data rest : Bytes} {n : Nat} {m : Message}
    (h : next (data.take n) = some (.ok m, rest)) :
    ∃ k, next data = some (.ok m, data.drop k) ∧ rest = (data.drop k).take (n - k) := by
  obtain ⟨hdec, hcover, hlong, hpay, hrest⟩ := next_eq_ok_iff.1 h
  rw [List.length_take] at hlong
  have hn : m.header.length.toNat ≤ n := by omega
  have hdata : m.header.length.toNat ≤ data.length := by omega
  rw [Header.decode_take (hcover.trans hn) (hcover.trans hdata)] at hdec
  refine ⟨Bytes.alignUp m.header.length.toNat, ?_, ?_⟩
  · refine next_eq_ok_iff.2 ⟨hdec, hcover, hdata, ?_, rfl⟩
    rw [hpay, List.drop_take, List.take_take, Nat.min_eq_left (by omega)]
  · rw [hrest, List.drop_take]

/-- A cut can only take messages off the end. -/
theorem walk_take_prefix (data : Bytes) (n : Nat) :
    (walk (data.take n)).items <+: (walk data).items := by
  induction hl : data.length using Nat.strong_induction_on generalizing data n with
  | _ l ih =>
      subst hl
      match hcut : next (data.take n) with
      | none =>
          rw [walk_of_next_none hcut]
          exact List.nil_prefix
      | some (.error e, rest) =>
          rw [walk_of_next_error hcut]
          exact List.nil_prefix
      | some (.ok m, rest) =>
          obtain ⟨k, hnext, hrest⟩ := next_of_next_take hcut
          rw [walk_of_next_ok hcut, walk_of_next_ok hnext, hrest]
          exact List.cons_prefix_cons.2 ⟨rfl, ih _ (next_shortens hnext) _ _ rfl⟩

end Netfilter.Message
