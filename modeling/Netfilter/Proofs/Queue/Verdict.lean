import Netfilter.Proofs.Link.Sending
import Netfilter.Proofs.Wire.Frame
import Netfilter.Proofs.Wire.Message
import Netfilter.Queue.Verdict

/-!
# What a verdict does to its channel

The frame of a verdict has room for all that is put into it, so only a payload
that is too long keeps a verdict from having its pieces. A verdict takes one
sequence number. It is refused, or its pieces bear that number and are recorded;
the inbox is not touched.
-/

namespace Netfilter.Queue.Verdict

def deciding (v : Verdict) : Attribute := ⟨Field.verdictHeader.rawType, v.decision⟩

def marking (mark : UInt32) : Attribute := ⟨Field.mark.rawType, Bytes.big 4 mark.toNat⟩

def attributes (v : Verdict) : List Attribute := v.deciding :: (v.mark.map marking).toList

def family (queue : UInt16) : Bytes :=
  FamilyHeader.encode { family := FamilyHeader.unspecified, resource := queue }

def body (v : Verdict) (queue : UInt16) : Bytes :=
  family queue ++ v.attributes.flatMap Attribute.encode

def messageHeader (v : Verdict) (queue : UInt16) (payloadSize : Nat) (seq : UInt32) :
    Message.Header where
  length := UInt32.ofNat (Message.headerSize + (v.body queue).length +
    if payloadSize = 0 then 0 else Attribute.paddedSize payloadSize)
  type := Message.typeOf Subsystem.queue Operation.verdict.number
  flags := Message.request
  seq := seq
  port := 0

def opening (v : Verdict) (queue : UInt16) (payloadSize : Nat) (seq : UInt32) : Bytes :=
  (v.messageHeader queue payloadSize seq).encode ++ v.body queue

theorem length_family (queue : UInt16) : (family queue).length = 4 := rfl

theorem length_encode_deciding (v : Verdict) : v.deciding.encode.length = 12 := by
  rw [Attribute.length_encode]
  simp only [deciding, decision, List.length_append, Bytes.length_big]
  rfl

theorem length_encode_marking (mark : UInt32) : (marking mark).encode.length = 8 := by
  rw [Attribute.length_encode, marking, Bytes.length_big]
  rfl

theorem deciding_fits (v : Verdict) : v.deciding.Fits := by
  unfold deciding decision
  rw [Attribute.Fits, List.length_append, Bytes.length_big, Bytes.length_big]
  decide

theorem marking_fits (mark : UInt32) : (marking mark).Fits := by
  unfold marking
  rw [Attribute.Fits, Bytes.length_big]
  decide

theorem length_opening_le (v : Verdict) (queue : UInt16) (payloadSize : Nat) (seq : UInt32) :
    (v.opening queue payloadSize seq).length ≤ maxHeaderSize := by
  have hmax : maxHeaderSize = 40 := rfl
  rw [opening, List.length_append, Message.Header.length_encode, Message.headerSize, body,
    attributes]
  cases v.mark with
  | none => simp [length_family, length_encode_deciding, hmax]
  | some m => simp [length_family, length_encode_deciding, length_encode_marking, hmax]

def aside : Bytes := List.replicate Message.headerSize 0

theorem push_family (queue : UInt16) :
    (Frame.reserve maxHeaderSize Message.headerSize).push (family queue) =
      Frame.ofFront maxHeaderSize (aside ++ family queue) := by
  rw [Frame.reserve_eq_ofFront (by decide),
    Frame.push_ofFront (by decide) (by rw [length_family]; decide),
    Bytes.padded_of_mod_eq_zero (by rw [length_family]), aside]

theorem pushAttribute_deciding (v : Verdict) (queue : UInt16) :
    (Frame.ofFront maxHeaderSize (aside ++ family queue)).pushAttribute
      Field.verdictHeader.rawType v.decision =
      .ok (Frame.ofFront maxHeaderSize (aside ++ family queue ++ v.deciding.encode)) := by
  have hfront : (aside ++ family queue).length = 20 := rfl
  exact Frame.pushAttribute_ofFront (by rw [hfront]) v.deciding_fits
    (by rw [hfront, length_encode_deciding]; decide)

theorem pushAttribute_marking (v : Verdict) (queue : UInt16) (mark : UInt32) :
    (Frame.ofFront maxHeaderSize (aside ++ family queue ++ v.deciding.encode)).pushAttribute
      Field.mark.rawType (Bytes.big 4 mark.toNat) =
      .ok (Frame.ofFront maxHeaderSize
        (aside ++ family queue ++ v.deciding.encode ++ (marking mark).encode)) := by
  have hfront : (aside ++ family queue ++ v.deciding.encode).length = 32 := by
    rw [List.length_append, length_encode_deciding]
    rfl
  exact Frame.pushAttribute_ofFront (by rw [hfront]) (marking_fits mark)
    (by rw [hfront, length_encode_marking]; decide)

/-- The header of the message is written last, into the space left for it. -/
theorem write_messageHeader (v : Verdict) (queue : UInt16) (payloadSize : Nat) (seq : UInt32)
    {front : Bytes} (hfront : front = aside ++ v.body queue) :
    (Frame.ofFront maxHeaderSize front).write 0 (Message.Header.encode {
      length := UInt32.ofNat ((Frame.ofFront maxHeaderSize front).used +
        if payloadSize = 0 then 0 else Attribute.paddedSize payloadSize)
      type := Message.typeOf Subsystem.queue Operation.verdict.number
      flags := Message.request
      seq
      port := 0 }) = Frame.ofFront maxHeaderSize (v.opening queue payloadSize seq) := by
  have hused : (Frame.ofFront maxHeaderSize front).used =
      Message.headerSize + (v.body queue).length := by
    rw [Frame.used_ofFront, hfront, List.length_append, aside, List.length_replicate]
  rw [hused, hfront, Frame.write_zero_ofFront (by rw [Message.Header.length_encode]; rfl)]
  rfl

/-- All that is put into the frame has room in it. -/
theorem frame_eq (v : Verdict) (queue : UInt16) (payloadSize : Nat) (seq : UInt32) :
    v.frame queue payloadSize seq =
      .ok (Frame.ofFront maxHeaderSize (v.opening queue payloadSize seq)) := by
  unfold frame
  rw [← family]
  simp only [push_family, pushAttribute_deciding]
  cases hmark : v.mark with
  | none =>
      exact congrArg Except.ok (v.write_messageHeader queue payloadSize seq
        (by simp [body, attributes, hmark]))
  | some m =>
      simp only [bind, Except.bind, pushAttribute_marking]
      exact congrArg Except.ok (v.write_messageHeader queue payloadSize seq
        (by simp [body, attributes, hmark]))

theorem pieces_of_empty (v : Verdict) (queue : UInt16) (seq : UInt32) :
    v.pieces queue [] seq = .ok [v.opening queue 0 seq] := by
  have hframe := v.frame_eq queue 0 seq
  simp only [pieces, List.length_nil, if_true, hframe]
  exact congrArg (fun front => Except.ok [front]) Frame.filled_ofFront

theorem pieces_of_oversized (v : Verdict) (queue : UInt16) (seq : UInt32) {payload : Bytes}
    (h : maxPayload < payload.length) :
    v.pieces queue payload seq =
      .error (.invalidAttribute (.oversizedPacket payload.length)) := by
  have hne : payload.length ≠ 0 := by omega
  simp only [pieces, if_neg hne, if_pos h]

def payloadHeader (payloadSize : Nat) : Attribute.Header :=
  ⟨UInt16.ofNat (Attribute.headerSize + payloadSize), Field.payload.rawType⟩

theorem pieces_of_payload (v : Verdict) (queue : UInt16) (seq : UInt32) {payload : Bytes}
    (hne : payload ≠ []) (hle : payload.length ≤ maxPayload) :
    v.pieces queue payload seq = .ok [v.opening queue payload.length seq,
      (payloadHeader payload.length).encode, Bytes.padded payload] := by
  have hpos : payload.length ≠ 0 := by rwa [ne_eq, List.length_eq_zero_iff]
  have hnlt : ¬ maxPayload < payload.length := by omega
  have hsize : Attribute.headerSize + payload.length < 65536 := by
    unfold maxPayload Attribute.maxValue at hle
    unfold Attribute.headerSize at *
    omega
  have hframe := v.frame_eq queue payload.length seq
  simp only [pieces, if_neg hpos, if_neg hnlt, hframe, Attribute.Header.forValue, if_pos hsize]
  exact congrArg (fun front => Except.ok [front, _, _]) Frame.filled_ofFront

theorem pieces_begin {v : Verdict} {queue : UInt16} {payload : Bytes} {seq : UInt32}
    {pieces : List Bytes} (h : v.pieces queue payload seq = .ok pieces) :
    ∃ later, pieces = v.opening queue payload.length seq :: later := by
  by_cases hnil : payload = []
  · subst hnil
    rw [pieces_of_empty] at h
    exact ⟨[], (Except.ok.inj h).symm⟩
  · by_cases hle : payload.length ≤ maxPayload
    · rw [v.pieces_of_payload queue seq hnil hle] at h
      exact ⟨_, (Except.ok.inj h).symm⟩
    · rw [v.pieces_of_oversized queue seq (by omega)] at h
      cases h

theorem send_cases (v : Verdict) (queue : UInt16) (payload : Bytes) (c : Channel) :
    (∃ gatherFaults, (v.send queue payload c).2 =
        { c with nextSeq := c.nextSeq + 1, socket := { c.socket with gatherFaults } }) ∨
      ∃ pieces gatherFaults, v.pieces queue payload c.nextSeq = .ok pieces ∧
        (v.send queue payload c).2 = { c with
          nextSeq := c.nextSeq + 1
          socket := { c.socket with gatherFaults, gathered := c.socket.gathered ++ [pieces] } } := by
  unfold send Channel.takeSeq
  cases hp : v.pieces queue payload c.nextSeq with
  | error e => exact .inl ⟨c.socket.gatherFaults, by simp only [hp]⟩
  | ok pieces =>
      rcases Channel.gather_cases { c with nextSeq := c.nextSeq + 1 } pieces with
        ⟨e, faults, hg⟩ | ⟨n, faults, hg⟩
      · exact .inl ⟨faults, by simp only [hp, hg]⟩
      · exact .inr ⟨pieces, faults, rfl, by simp only [hp, hg]⟩

end Netfilter.Queue.Verdict
