import Netfilter.Proofs.Queue.Verdict
import Netfilter.Proofs.Wire.Draft

/-!
# Verdicts are the messages they would be built as

One after the other, the pieces of a verdict are the message that is built from
it attribute by attribute, for every verdict and every payload that an attribute
can hold. A longer payload is refused before anything is written, and in every
case the payload is given back as it was.
-/

namespace Netfilter.Queue

theorem Disposition.ofNumber?_number (d : Disposition) : ofNumber? d.number = some d := by
  cases d with
  | queue n =>
      have hlt := n.toNat_lt
      have hnumber : (number (queue n)).toNat = n.toNat * 65536 + 3 := by
        rw [number, UInt32.toNat_ofNat', Nat.mod_eq_of_lt (by omega)]
      have hlow : (n.toNat * 65536 + 3) % 65536 = 3 := by omega
      have hhigh : (n.toNat * 65536 + 3) / 65536 = n.toNat := by omega
      simp only [ofNumber?, hnumber, hlow, hhigh, UInt16.ofNat_toNat]
  | _ => rfl

namespace Verdict

def draft (v : Verdict) (queue : UInt16) (payload : Bytes) (seq : UInt32) : Except Error Draft :=
  let opened : Draft := { Draft.netfilter Subsystem.queue Operation.verdict.number Message.request
    FamilyHeader.unspecified queue with seq }
  let decided := opened.short Field.verdictHeader.rawType
    (Bytes.big 4 v.disposition.number.toNat ++ Bytes.big 4 v.packet.toNat)
  let marked := match v.mark with
    | none => decided
    | some m => decided.word32 Field.mark.rawType m
  if payload.isEmpty then .ok marked else marked.add Field.payload.rawType payload

def bare (queue : UInt16) (seq : UInt32) : Draft where
  type := Message.typeOf Subsystem.queue Operation.verdict.number
  flags := Message.request
  seq := seq
  body := family queue

theorem aligned_bare (queue : UInt16) (seq : UInt32) : (bare queue seq).Aligned := by
  rw [Draft.Aligned, bare, length_family]

def unladen (v : Verdict) (queue : UInt16) (seq : UInt32) : Draft :=
  (bare queue seq).extend (v.attributes.flatMap Attribute.encode)

theorem aligned_unladen (v : Verdict) (queue : UInt16) (seq : UInt32) :
    (v.unladen queue seq).Aligned :=
  (aligned_bare queue seq).extend (Attribute.flatMap_encode_mod v.attributes)

theorem draft_eq (v : Verdict) (queue : UInt16) (payload : Bytes) (seq : UInt32) :
    v.draft queue payload seq =
      if payload.isEmpty then .ok (v.unladen queue seq)
      else (v.unladen queue seq).add Field.payload.rawType payload := by
  have hdecided : (bare queue seq).short Field.verdictHeader.rawType v.decision =
      (bare queue seq).extend v.deciding.encode :=
    Draft.short_of_fits (aligned_bare queue seq) v.deciding v.deciding_fits
  have haligned : ((bare queue seq).extend v.deciding.encode).Aligned :=
    (aligned_bare queue seq).extend (by rw [length_encode_deciding])
  have hmarked : (match v.mark with
      | none => (bare queue seq).extend v.deciding.encode
      | some m => ((bare queue seq).extend v.deciding.encode).word32 Field.mark.rawType m) =
      v.unladen queue seq := by
    unfold unladen attributes
    cases v.mark with
    | none => simp
    | some m =>
        have hword : ((bare queue seq).extend v.deciding.encode).word32 Field.mark.rawType m =
            ((bare queue seq).extend v.deciding.encode).extend (marking m).encode :=
          Draft.short_of_fits haligned (marking m) (marking_fits m)
        simp [hword, Draft.extend_extend]
  rw [← hmarked, ← hdecided]
  rfl

/-- The first piece and what follows it are a finished draft. -/
theorem opening_append (v : Verdict) (queue : UInt16) (seq : UInt32) {payloadSize : Nat}
    {tail : Bytes}
    (h : tail.length = if payloadSize = 0 then 0 else Attribute.paddedSize payloadSize) :
    v.opening queue payloadSize seq ++ tail = ((v.unladen queue seq).extend tail).finish := by
  have hsize : ((v.unladen queue seq).extend tail).size = Message.headerSize +
      (v.body queue).length + if payloadSize = 0 then 0 else Attribute.paddedSize payloadSize := by
    rw [← h, Draft.size, Draft.body_extend, List.length_append, Nat.add_assoc]
    rfl
  have hheader : ((v.unladen queue seq).extend tail).header =
      v.messageHeader queue payloadSize seq := by
    rw [Draft.header, hsize]
    rfl
  rw [Draft.finish_eq, hheader, opening, List.append_assoc]
  rfl

theorem decode_finish_of_size {d : Draft} (h : d.size < 2 ^ 32) :
    ∃ header, Message.Header.decode d.finish = .ok header ∧
      header.length.toNat = d.finish.length := by
  refine ⟨d.header, ?_, Draft.toNat_length_header h⟩
  rw [Draft.finish_eq]
  exact d.header.decode_encode_append d.body

/-- The pieces of a verdict are its message, written in one piece or in three. -/
structure Written (v : Verdict) (queue : UInt16) (payload : Bytes) (seq : UInt32)
    (pieces : List Bytes) : Prop where
  built : ∃ d, v.draft queue payload seq = .ok d ∧ pieces.flatten = d.finish
  alone : payload = [] → pieces.length = 1
  /-- The length of the payload attribute does not count the padding. -/
  apart : payload ≠ [] → ∃ first header, pieces =
    [first, Attribute.Header.encode header, payload ++
      List.replicate (Bytes.alignUp payload.length - payload.length) 0] ∧
    header.rawType = Field.payload.rawType ∧ header.length.toNat = payload.length + 4
  /-- The first piece was never written beyond the end of its frame. -/
  framed : ∃ frame, v.frame queue payload.length seq = .ok frame ∧ frame.bytes.length = 40 ∧
    frame.used ≤ 40 ∧ pieces.head? = some frame.filled
  /-- The length in the header of the message is the number of bytes written. -/
  counted : ∃ header, Message.Header.decode pieces.flatten = .ok header ∧
    header.length.toNat = pieces.flatten.length

theorem framed_opening (v : Verdict) (queue : UInt16) (payloadSize : Nat) (seq : UInt32) :
    ∃ frame, v.frame queue payloadSize seq = .ok frame ∧ frame.bytes.length = 40 ∧
      frame.used ≤ 40 ∧ some (v.opening queue payloadSize seq) = some frame.filled := by
  have hle : (v.opening queue payloadSize seq).length ≤ 40 := v.length_opening_le queue _ seq
  refine ⟨_, v.frame_eq queue payloadSize seq, Frame.length_bytes_ofFront hle, ?_, ?_⟩
  · rw [Frame.used_ofFront]
    exact hle
  · rw [Frame.filled_ofFront]

theorem written_of_empty (v : Verdict) (queue : UInt16) (seq : UInt32) :
    v.Written queue [] seq [v.opening queue 0 seq] := by
  have hflatten : [v.opening queue 0 seq].flatten = (v.unladen queue seq).finish := by
    have h : v.opening queue 0 seq ++ [] = ((v.unladen queue seq).extend []).finish :=
      v.opening_append queue seq rfl
    rw [Draft.extend_nil, List.append_nil] at h
    rw [List.flatten_singleton, h]
  have hsmall : (v.unladen queue seq).size < 2 ^ 32 := by
    have hle : (v.opening queue 0 seq).length ≤ 40 := v.length_opening_le queue 0 seq
    rw [← Draft.length_finish, ← hflatten, List.flatten_singleton]
    omega
  refine ⟨⟨_, by rw [draft_eq]; rfl, hflatten⟩, fun _ => rfl, fun h => absurd rfl h,
    v.framed_opening queue 0 seq, ?_⟩
  rw [hflatten]
  exact decode_finish_of_size hsmall

theorem written_of_payload (v : Verdict) (queue : UInt16) (seq : UInt32) {payload : Bytes}
    (hne : payload ≠ []) (hle : payload.length ≤ maxPayload) :
    v.Written queue payload seq [v.opening queue payload.length seq,
      (payloadHeader payload.length).encode, Bytes.padded payload] := by
  let a : Attribute := ⟨Field.payload.rawType, payload⟩
  have hfits : a.Fits := hle
  have hpos : payload.length ≠ 0 := by rwa [ne_eq, List.length_eq_zero_iff]
  have hencode : a.encode = (payloadHeader payload.length).encode ++ Bytes.padded payload :=
    a.encode_eq_append hfits
  have htail : a.encode.length =
      if payload.length = 0 then 0 else Attribute.paddedSize payload.length := by
    rw [if_neg hpos, Attribute.length_encode]
  have hflatten : [v.opening queue payload.length seq, (payloadHeader payload.length).encode,
      Bytes.padded payload].flatten = ((v.unladen queue seq).extend a.encode).finish := by
    rw [← v.opening_append queue seq htail, hencode]
    simp
  have hdraft : v.draft queue payload seq = .ok ((v.unladen queue seq).extend a.encode) := by
    have hempty : ¬ payload.isEmpty = true := by simpa using hne
    rw [draft_eq, if_neg hempty]
    exact Draft.add_of_fits (v.aligned_unladen queue seq) a hfits
  have hsmall : ((v.unladen queue seq).extend a.encode).size < 2 ^ 32 := by
    have hopening : (v.opening queue payload.length seq).length ≤ 40 :=
      v.length_opening_le queue _ seq
    have hspace : Attribute.paddedSize payload.length ≤ 65540 := by
      unfold maxPayload Attribute.maxValue Attribute.headerSize at hle
      unfold Attribute.paddedSize Bytes.alignUp Attribute.headerSize
      omega
    rw [← Draft.length_finish, ← v.opening_append queue seq htail, List.length_append,
      Attribute.length_encode]
    change _ + Attribute.paddedSize payload.length < _
    omega
  have hlength : (payloadHeader payload.length).length.toNat = payload.length + 4 := by
    have hsize : Attribute.headerSize + payload.length < 65536 := hfits.size_lt
    rw [payloadHeader, UInt16.toNat_ofNat', Nat.mod_eq_of_lt hsize, Attribute.headerSize,
      Nat.add_comm]
  refine ⟨⟨_, hdraft, hflatten⟩, fun h => absurd h hne,
    fun _ => ⟨_, payloadHeader payload.length, rfl, rfl, hlength⟩,
    v.framed_opening queue payload.length seq, ?_⟩
  rw [hflatten]
  exact decode_finish_of_size hsmall

/-- The bytes are one message and nothing else: this verdict for this queue, under this number. -/
def Says (v : Verdict) (queue : UInt16) (seq : UInt32) (data : Bytes) : Prop :=
  ∃ header payload rest, Message.walk data = ⟨[⟨header, payload⟩], none⟩ ∧
    header.length.toNat = data.length ∧
    header.type = Message.typeOf Subsystem.queue Operation.verdict.number ∧
    header.flags = Message.request ∧ header.seq = seq ∧ header.port = 0 ∧
    FamilyHeader.read payload = .ok (⟨FamilyHeader.unspecified, 0, queue⟩, rest) ∧
    Attribute.walk rest = ⟨v.attributes, none⟩

theorem says_opening (v : Verdict) (queue : UInt16) (seq : UInt32) :
    v.Says queue seq (v.opening queue 0 seq) := by
  have hfinish : v.opening queue 0 seq = (v.unladen queue seq).finish := by
    have h : v.opening queue 0 seq ++ [] = ((v.unladen queue seq).extend []).finish :=
      v.opening_append queue seq rfl
    rwa [Draft.extend_nil, List.append_nil] at h
  have hsize : (v.unladen queue seq).size < 2 ^ 32 := by
    have hle : (v.opening queue 0 seq).length ≤ 40 := v.length_opening_le queue 0 seq
    rw [hfinish, Draft.length_finish] at hle
    omega
  have hfits : ∀ a ∈ v.attributes, a.Fits := by
    unfold attributes
    cases v.mark with
    | none => simpa using v.deciding_fits
    | some m => simpa using ⟨v.deciding_fits, marking_fits m⟩
  refine ⟨(v.unladen queue seq).header, (v.unladen queue seq).body, _, ?_, ?_, rfl, rfl, rfl, rfl,
    FamilyHeader.read_encode_append ⟨FamilyHeader.unspecified, 0, queue⟩ _,
    Attribute.walk_flatMap_encode v.attributes hfits⟩
  · rw [hfinish]
    exact Draft.walk_finish (v.aligned_unladen queue seq) hsize
  · rw [hfinish]
    exact Draft.toNat_length_header hsize

/-- The payload is given back whatever comes of the write. -/
theorem send_of_pieces {v : Verdict} {queue : UInt16} {payload : Bytes} {c : Channel}
    {pieces : List Bytes} (h : v.pieces queue payload c.nextSeq = .ok pieces) :
    v.send queue payload c = (((c.takeSeq.2.gather pieces).1.map fun _ => (), payload),
      (c.takeSeq.2.gather pieces).2) := by
  simp only [send, Channel.takeSeq, h, Bytes.take_padded]

theorem send_of_refusal {v : Verdict} {queue : UInt16} {payload : Bytes} {c : Channel} {e : Error}
    (h : v.pieces queue payload c.nextSeq = .error e) :
    v.send queue payload c = ((.error e, payload), c.takeSeq.2) := by
  simp only [send, Channel.takeSeq, h]

theorem exists_written (v : Verdict) (queue : UInt16) (seq : UInt32) {payload : Bytes}
    (hle : payload.length ≤ maxPayload) :
    ∃ pieces, v.pieces queue payload seq = .ok pieces ∧ v.Written queue payload seq pieces := by
  by_cases hnil : payload = []
  · subst hnil
    exact ⟨_, v.pieces_of_empty queue seq, v.written_of_empty queue seq⟩
  · exact ⟨_, v.pieces_of_payload queue seq hnil hle, v.written_of_payload queue seq hnil hle⟩

structure Faithful (v : Verdict) (queue : UInt16) (payload : Bytes) (c : Channel) : Prop where
  readBack : Disposition.ofNumber? v.disposition.number = some v.disposition
  restored : (v.send queue payload c).1.2 = payload
  numbered : (v.send queue payload c).2.nextSeq = c.nextSeq + 1
  written : payload.length ≤ 65531 → ∃ pieces, v.Written queue payload c.nextSeq pieces ∧
    ((v.send queue payload c).1.1 = .ok () ∧
        (v.send queue payload c).2.socket.gathered = c.socket.gathered ++ [pieces] ∨
      ∃ e, (v.send queue payload c).1.1 = .error e ∧ (c.takeSeq.2.gather pieces).1 = .error e ∧
        (v.send queue payload c).2.socket.gathered = c.socket.gathered)
  /-- Nothing at all is done to the channel then but to take the number. -/
  refused : 65531 < payload.length → v.send queue payload c =
    ((.error (.invalidAttribute (.oversizedPacket payload.length)), payload), c.takeSeq.2)

theorem send_faithful (v : Verdict) (queue : UInt16) (payload : Bytes) (c : Channel) :
    v.Faithful queue payload c := by
  have hnumbered : (v.send queue payload c).2.nextSeq = c.nextSeq + 1 := by
    rcases v.send_cases queue payload c with ⟨faults, hs⟩ | ⟨pieces, faults, -, hs⟩ <;> rw [hs]
  by_cases hle : payload.length ≤ maxPayload
  · obtain ⟨pieces, hpieces, hwritten⟩ := v.exists_written queue c.nextSeq hle
    have hsend := send_of_pieces hpieces
    refine ⟨v.disposition.ofNumber?_number, by rw [hsend], hnumbered, fun _ => ?_, fun h => ?_⟩
    · refine ⟨pieces, hwritten, ?_⟩
      rw [hsend]
      rcases c.takeSeq.2.gather_cases pieces with ⟨e, faults, hg⟩ | ⟨n, faults, hg⟩
      · exact .inr ⟨e, by rw [hg]; rfl, by rw [hg], by rw [hg]; rfl⟩
      · exact .inl ⟨by rw [hg]; rfl, by rw [hg]; rfl⟩
    · exact absurd hle (Nat.not_le_of_gt h)
  · have hsend := send_of_refusal
      (v.pieces_of_oversized queue c.nextSeq (Nat.lt_of_not_le hle))
    exact ⟨v.disposition.ofNumber?_number, by rw [hsend], hnumbered, fun h => absurd h hle,
      fun _ => hsend⟩

end Verdict

end Netfilter.Queue
