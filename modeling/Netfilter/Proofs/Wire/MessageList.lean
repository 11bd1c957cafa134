import Netfilter.Proofs.Wire.Batch
import Netfilter.Proofs.Wire.Framing
import Netfilter.Proofs.Wire.Making

/-!
# How a datagram is split

A message is written as its header, in which its length stands, and its payload.
Reading a datagram gives the longest sequence of such messages at its front and
then says what is wrong with the bytes after them, if there are any. Finished
drafts are whole words, so put one after the other they are read one by one.
-/

namespace Netfilter.Message

open Reading (left answer)

theorem Header.decode_eq_ok_iff {data : Bytes} {h : Header} :
    Header.decode data = .ok h ↔ h.encode <+: data := by
  constructor
  · intro hd
    have hlong := Header.headerSize_le_of_decode hd
    have hfield (offset k : Nat) (hk : offset + k ≤ data.length) :
        ((data.drop offset).take k).length = k := by
      rw [List.length_take, List.length_drop]
      omega
    rw [Header.decode, if_pos ((Bytes.hasAtLeast_iff _ _).2 hlong)] at hd
    unfold headerSize at hlong
    obtain rfl := Except.ok.inj hd
    have hencode : Header.encode ⟨UInt32.ofNat (field data 0 4), UInt16.ofNat (field data 4 2),
        UInt16.ofNat (field data 6 2), UInt32.ofNat (field data 8 4),
        UInt32.ofNat (field data 12 4)⟩ = data.take 16 := by
      simp only [Header.encode, field]
      rw [Bytes.little_ofLittle_word32 (hfield 0 4 (by omega)),
        Bytes.little_ofLittle_word16 (hfield 4 2 (by omega)),
        Bytes.little_ofLittle_word16 (hfield 6 2 (by omega)),
        Bytes.little_ofLittle_word32 (hfield 8 4 (by omega)),
        Bytes.little_ofLittle_word32 (hfield 12 4 (by omega)), List.drop_zero,
        ← List.take_add, ← List.take_add, ← List.take_add, ← List.take_add]
    rw [hencode]
    exact List.take_prefix 16 data
  · rintro ⟨rest, rfl⟩
    exact h.decode_encode_append rest

/-- A header of sixteen bytes in which the length of the whole stands, and the payload. -/
def framing : Framing Message where
  write := encode
  Sound m := m.header.length.toNat = headerSize + m.payload.length
  write_ne_nil m := by
    intro h
    have hlength := congrArg List.length h
    simp [encode, Header.length_encode, headerSize] at hlength

theorem length_write {m : Message} (h : framing.Sound m) :
    (framing.write m).length = m.header.length.toNat := by
  change (m.header.encode ++ m.payload).length = _
  rw [List.length_append, Header.length_encode]
  exact h.symm

theorem front_of_next {data rest : Bytes} {m : Message} (hnext : next data = some (.ok m, rest)) :
    framing.Sound m ∧ framing.write m <+: data ∧ rest = data.drop (framing.space m) := by
  obtain ⟨hdec, hcover, hlong, hpayload, rfl⟩ := next_eq_ok_iff.1 hnext
  obtain ⟨after, rfl⟩ := Header.decode_eq_ok_iff.1 hdec
  have henc := m.header.length_encode
  have hafter : m.payload = after.take (m.header.length.toNat - headerSize) := by
    rw [hpayload, ← henc, List.drop_left]
  have hsound : framing.Sound m := by
    change m.header.length.toNat = headerSize + m.payload.length
    rw [List.length_append, henc] at hlong
    rw [hafter, List.length_take]
    omega
  refine ⟨hsound, ?_, ?_⟩
  · change m.header.encode ++ m.payload <+: m.header.encode ++ after
    rw [List.prefix_append_right_inj, hafter]
    exact List.take_prefix _ _
  · rw [Framing.space, length_write hsound]

theorem next_of_front {data : Bytes} {m : Message} (hsound : framing.Sound m)
    (hfront : framing.write m <+: data) :
    next data = some (.ok m, data.drop (framing.space m)) := by
  obtain ⟨after, rfl⟩ := hfront
  have henc := m.header.length_encode
  have hlength := length_write hsound
  have htell : m.header.length.toNat = headerSize + m.payload.length := hsound
  have hwrite : framing.write m ++ after = m.header.encode ++ (m.payload ++ after) :=
    List.append_assoc ..
  refine next_eq_ok_iff.2 ⟨?_, ?_, ?_, ?_, ?_⟩
  · exact Header.decode_eq_ok_iff.2 (hwrite ▸ List.prefix_append _ _)
  · rw [htell]
    exact Nat.le_add_right _ _
  · rw [List.length_append, hlength]
    exact Nat.le_add_right _ _
  · rw [htell, Nat.add_sub_cancel_left, hwrite, ← henc, List.drop_left, List.take_left]
  · rw [Framing.space, hlength]

theorem obeys_next : framing.Obeys next where
  none_iff := next_eq_none_iff
  spent h := (next_eq_error_iff.1 h).2.1
  ok_iff := by
    refine ⟨front_of_next, ?_⟩
    rintro ⟨hsound, hfront, rfl⟩
    exact next_of_front hsound hfront

def ending (rest : Bytes) : List (Except Error Message) :=
  if rest = [] then []
  else if rest.length < headerSize then [.error (.truncated headerSize rest.length)]
  else [.error (.invalidMessage (.length (Bytes.ofLittle (rest.take 4)) rest.length))]

theorem toNat_length_of_decode {data : Bytes} {h : Header} (hd : Header.decode data = .ok h) :
    h.length.toNat = Bytes.ofLittle (data.take 4) := by
  obtain ⟨rest, rfl⟩ := Header.decode_eq_ok_iff.1 hd
  have htake : (h.encode ++ rest).take 4 = Bytes.little 4 h.length.toNat := by
    simp only [Header.encode, List.append_assoc]
    exact List.take_left' (Bytes.length_little 4 _)
  rw [htake, Bytes.ofLittle_little_of_lt h.length.toNat_lt]

theorem answer_of_stuck {rest : Bytes} (h : Framing.Stuck next rest) :
    ((next rest).map Prod.fst).toList = ending rest ∧
      (rest ≠ [] → headerSize ≤ rest.length →
        Bytes.ofLittle (rest.take 4) < headerSize ∨
          rest.length < Bytes.ofLittle (rest.take 4)) := by
  cases hnext : next rest with
  | none =>
      obtain rfl := next_eq_none_iff.1 hnext
      exact ⟨rfl, fun hne => absurd rfl hne⟩
  | some taken =>
      obtain ⟨e | m, later⟩ := taken
      · obtain ⟨hne, -, ⟨hshort, rfl⟩ | ⟨hdr, hdec, hbad, rfl⟩⟩ := next_eq_error_iff.1 hnext
        · rw [ending, if_neg hne, if_pos hshort]
          exact ⟨rfl, fun _ hlong => absurd hshort (Nat.not_lt.2 hlong)⟩
        · have hlong := Header.headerSize_le_of_decode hdec
          have htell := toNat_length_of_decode hdec
          rw [ending, if_neg hne, if_neg (Nat.not_lt.2 hlong), ← htell]
          exact ⟨rfl, fun _ _ => hbad⟩
      · exact absurd hnext (h m later)

structure SplitInto (data : Bytes) (ms : List Message) (rest : Bytes) : Prop where
  begins : framing.Begins ms data rest
  longest : ∀ {ms' rest'}, framing.Begins ms' data rest' → ms' <+: ms
  answers : ∀ n, answer next data n = (ms.map .ok ++ ending rest)[n]?
  defective : rest ≠ [] → headerSize ≤ rest.length →
    Bytes.ofLittle (rest.take 4) < headerSize ∨ rest.length < Bytes.ofLittle (rest.take 4)
  standing : ∀ n, n ≤ ms.length → left next data n = data.drop (framing.position ms n)
  first : ∀ n m, ms[n]? = some m → m.encode <+: left next data n
  moves : ∀ n m, ms[n]? = some m → framing.position ms (n + 1) =
    framing.position ms n + Bytes.alignUp m.header.length.toNat
  leftAtEnd : left next data ms.length = rest
  leftAfter : ∀ n, ms.length < n → left next data n = []

theorem splitInto_of_begins {data rest : Bytes} {ms : List Message}
    (hbegins : framing.Begins ms data rest) (hstuck : Framing.Stuck next rest) :
    SplitInto data ms rest := by
  obtain ⟨hending, hdefective⟩ := answer_of_stuck hstuck
  refine ⟨hbegins, obeys_next.isPrefix hbegins hstuck, ?_, hdefective, ?_, ?_, ?_, ?_, ?_⟩
  · intro n
    rw [obeys_next.answer_eq hbegins hstuck, hending]
  · exact fun n => obeys_next.left_eq_drop hbegins
  · intro n m hm
    obtain ⟨hn, -⟩ := List.getElem?_eq_some_iff.1 hm
    rw [obeys_next.left_eq_drop hbegins (Nat.le_of_lt hn)]
    exact (hbegins.front_of_getElem? hm).2
  · intro n m hm
    rw [Framing.position_succ hm, Framing.space, length_write (hbegins.front_of_getElem? hm).1]
  · exact obeys_next.left_after hbegins 0
  · intro n hn
    obtain ⟨k, rfl⟩ := Nat.exists_eq_add_of_lt hn
    rw [Nat.add_assoc, obeys_next.left_after hbegins]
    exact obeys_next.left_of_end hstuck k

def made (makings : List (Draft.Start × List Draft.Edit)) : List Draft :=
  makings.map fun (start, edits) => (start.make edits).draft

/-- A finished draft is a message that needs no padding. -/
theorem padded_made {makings : List (Draft.Start × List Draft.Edit)}
    (hsize : ∀ d ∈ made makings, d.finish.length < 2 ^ 32) :
    framing.Padded ((made makings).map fun d => ⟨d.header, d.body⟩)
      ((made makings).flatMap Draft.finish) := by
  induction makings with
  | nil => exact .nil
  | cons making makings ih =>
      obtain ⟨start, edits⟩ := making
      obtain ⟨hfirst, hlater⟩ := List.forall_mem_cons.1 hsize
      let d : Draft := (start.make edits).draft
      have hwords : d.finish.length % 4 = 0 := by
        have haligned : d.body.length % 4 = 0 :=
          (Draft.Workpiece.sound_make start edits).aligned
        rw [Draft.length_finish, Draft.size, headerSize]
        omega
      have hsound : framing.Sound ⟨d.header, d.body⟩ := by
        have htell := Draft.toNat_length_header (d.length_finish ▸ hfirst)
        exact htell.trans d.length_finish
      have hwrite : framing.write ⟨d.header, d.body⟩ = d.finish := rfl
      have hfull : (d.finish ++ []).length = framing.space ⟨d.header, d.body⟩ := by
        rw [List.append_nil, Framing.space, hwrite, Bytes.alignUp_of_mod_eq_zero hwords]
      have hcons := Framing.Padded.cons hsound (hwrite ▸ hfull) (ih hlater)
      rw [List.append_nil] at hcons
      exact hcons

/-- Every datagram is split into the longest sequence of messages at its front, and finished
drafts are split as they were put together. -/
theorem split_exact :
    (∀ data, ∃ ms rest, SplitInto data ms rest) ∧
      ∀ makings : List (Draft.Start × List Draft.Edit),
        (∀ d ∈ made makings, d.finish.length < 2 ^ 32) →
        SplitInto ((made makings).flatMap Draft.finish)
          ((made makings).map fun d => ⟨d.header, d.body⟩) [] := by
  refine ⟨fun data => ?_, fun makings hsize => ?_⟩
  · obtain ⟨ms, rest, hbegins, hstuck⟩ := obeys_next.exists_longest data
    exact ⟨ms, rest, splitInto_of_begins hbegins hstuck⟩
  · have hbegins := (padded_made hsize).begins []
    rw [List.append_nil] at hbegins
    exact splitInto_of_begins hbegins fun m rest hnext => by
      rw [next_eq_none_iff.2 rfl] at hnext
      cases hnext

/-- A message with an attribute of one byte, and one with a nest whose number is set at the end. -/
def sampleMakings : List (Draft.Start × List Draft.Edit) :=
  [(.bare 16 1, [.word8 1 7]),
    (.netfilter 3 2 5 2 9, [.openNest 4, .word16 1 258, .closeNest 0, .setSeq 6])]

theorem split_exact_sampleMakings :
    (∀ d ∈ made sampleMakings, d.finish.length < 2 ^ 32) ∧
      answer next ((made sampleMakings).flatMap Draft.finish) 1 =
        some (.ok ⟨⟨32, 770, 5, 6, 0⟩, [2, 0, 0, 9, 12, 0, 4, 128, 6, 0, 1, 0, 1, 2, 0, 0]⟩) := by
  have hsize : ∀ d ∈ made sampleMakings, d.finish.length < 2 ^ 32 := by decide
  refine ⟨hsize, ?_⟩
  rw [(split_exact.2 sampleMakings hsize).answers]
  decide

end Netfilter.Message
