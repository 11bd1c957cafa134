import Netfilter.Proofs.Log.Item
import Netfilter.Proofs.Wire.Attribute

/-!
# What a feed notes

A feed notes that a receive failed as it gives the failure. What it finds out by
reading a datagram it gives without a note.
-/

namespace Netfilter.Log

def Item.notes : Item → List Note
  | .error .noBuffers => [Feed.overflowed]
  | .error (.io cause) => [Feed.broke (.io cause)]
  | _ => []

/-- If this fails, the failure is not noted. -/
def Unnoted {α : Type} (r : Except Error α) : Prop := ∀ e, r = .error e → Item.notes (.error e) = []

namespace Unnoted

variable {α β : Type}

theorem ok (a : α) : Unnoted (.ok a) := nofun

theorem error {e : Error} (h : Item.notes (.error e) = []) :
    Unnoted (.error e : Except Error α) := by
  intro e' he
  cases he
  exact h

theorem bind {r : Except Error α} {f : α → Except Error β} (hr : Unnoted r)
    (hf : ∀ a, Unnoted (f a)) : Unnoted (r >>= f) := by
  cases r with
  | error e => exact error (hr e rfl)
  | ok a => exact hf a

theorem map {r : Except Error α} (hr : Unnoted r) (f : α → β) : Unnoted (r.map f) := by
  cases r with
  | error e => exact error (hr e rfl)
  | ok a => exact ok (f a)

theorem readField {value : Field → Option Bytes} {f : Field} {read : Bytes → Except Error α}
    (hread : ∀ bytes, Unnoted (read bytes)) : Unnoted (readField value f read) := by
  unfold Log.readField
  cases value f with
  | none => exact ok none
  | some bytes => exact (hread bytes).map some

theorem word32 (bytes : Bytes) : Unnoted (Value.word32 bytes) := by
  apply map
  unfold Value.digits
  cases Bytes.split? 4 bytes with
  | none => exact error rfl
  | some front => exact ok front.1

theorem text (bytes : Bytes) : Unnoted (Value.text bytes) := by
  unfold Value.text
  cases Utf8.decode (bytes.takeWhile (· ≠ 0)) with
  | error defect => exact error rfl
  | ok s => exact ok s

theorem header (data : Bytes) : Unnoted (Message.Header.decode data) := by
  unfold Message.Header.decode
  split_ifs
  · exact ok _
  · exact error rfl

theorem familyHeader (data : Bytes) : Unnoted (FamilyHeader.read data) := by
  unfold FamilyHeader.read
  split
  · exact ok _
  · exact error rfl

theorem readTimestamp (bytes : Bytes) : Unnoted (readTimestamp bytes) := by
  unfold Log.readTimestamp
  dsimp only
  split
  · exact ok _
  · exact error rfl

theorem readHardwareAddress (bytes : Bytes) : Unnoted (readHardwareAddress bytes) := by
  unfold Log.readHardwareAddress
  dsimp only
  split
  · exact ok _
  · exact error rfl

theorem readHeader (bytes : Bytes) : Unnoted (readHeader bytes) := by
  unfold Log.readHeader
  split
  · exact ok _
  · exact error rfl

theorem ofValues (family : FamilyHeader) (value : Field → Option Bytes) :
    Unnoted (Entry.ofValues family value) := by
  have hword (f : Field) : Unnoted (Log.readField value f Value.word32) := readField word32
  unfold Entry.ofValues
  extract_lets rest
  have hrest (header : UInt16 × UInt8) : Unnoted (rest header) := by
    refine (hword .mark).bind fun mark => ?_
    refine (readField readTimestamp).bind fun timestamp => ?_
    refine (hword .inDevice).bind fun inDevice => ?_
    refine (hword .outDevice).bind fun outDevice => ?_
    refine (hword .physicalInDevice).bind fun physicalInDevice => ?_
    refine (hword .physicalOutDevice).bind fun physicalOutDevice => ?_
    refine (readField readHardwareAddress).bind fun hardwareAddress => ?_
    refine (hword .userId).bind fun userId => ?_
    refine (hword .groupId).bind fun groupId => ?_
    refine (hword .sequence).bind fun sequence => ?_
    refine (hword .globalSequence).bind fun globalSequence => ?_
    exact (readField text).bind fun rulePrefix => ok _
  cases value .packetHeader with
  | none => exact (error rfl).bind hrest
  | some bytes => exact (readHeader bytes).bind hrest

end Unnoted

theorem notes_of_attributes {data : Bytes} {e : Error} (h : (Attribute.walk data).fault = some e) :
    Item.notes (.error e) = [] := by
  induction data using Attribute.walk.induct with
  | case1 data hnext =>
      rw [Attribute.walk_of_next_none hnext] at h
      cases h
  | case2 data e' rest hnext =>
      rw [Attribute.walk_of_next_error hnext] at h
      obtain rfl : e' = e := Option.some.inj h
      unfold Attribute.next at hnext
      split at hnext
      · cases hnext
      · cases hheader : Attribute.Header.decode data <;> simp only [hheader] at hnext
        · cases hnext
          rfl
        · split_ifs at hnext <;> cases hnext <;> rfl
  | case3 data a rest hnext ih =>
      rw [Attribute.walk_of_next_ok hnext] at h
      exact ih h

theorem notes_of_messages {data : Bytes} {e : Error} (h : (Message.walk data).fault = some e) :
    Item.notes (.error e) = [] := by
  induction data using Message.walk.induct with
  | case1 data hnext =>
      rw [Message.walk_of_next_none hnext] at h
      cases h
  | case2 data e' rest hnext =>
      rw [Message.walk_of_next_error hnext] at h
      obtain rfl : e' = e := Option.some.inj h
      unfold Message.next at hnext
      split at hnext
      · cases hnext
      · have hunnoted := Unnoted.header data
        cases hheader : Message.Header.decode data <;> simp only [hheader] at hnext
        · cases hnext
          exact hunnoted _ hheader
        · split_ifs at hnext <;> cases hnext
          rfl
  | case3 data a rest hnext ih =>
      rw [Message.walk_of_next_ok hnext] at h
      exact ih h

theorem Unnoted.ofPayload (data : Bytes) : Unnoted (Entry.ofPayload data) := by
  unfold Entry.ofPayload
  have hfamily := familyHeader data
  cases hread : FamilyHeader.read data with
  | error e => exact error (hfamily e hread)
  | ok read =>
      dsimp only
      cases hfault : (Attribute.walk read.2).fault with
      | none => exact ofValues _ _
      | some e => exact error (notes_of_attributes hfault)

/-- What a datagram gives is given without a note. -/
theorem Item.notes_of_mem_ofDatagram {data : Bytes} {item : Item} (h : item ∈ ofDatagram data) :
    item.notes = [] := by
  rcases List.mem_append.1 h with hmessage | hfault
  · obtain ⟨m, -, hm⟩ := List.mem_filterMap.1 hmessage
    unfold ofMessage? Message.errorCode at hm
    split_ifs at hm with herror hpacket
    · cases hcode : Bytes.split? 4 m.payload with
      | none =>
          rw [hcode] at hm
          cases hm
          rfl
      | some front =>
          simp only [hcode] at hm
          split_ifs at hm
          cases hm
          rfl
    · obtain rfl : Entry.ofPayload m.payload = item := Option.some.inj hm
      cases hentry : Entry.ofPayload m.payload with
      | ok e => rfl
      | error e => exact Unnoted.ofPayload m.payload e hentry
  · obtain ⟨e, hwalk, rfl⟩ : ∃ e, (Message.walk data).fault = some e ∧ .error e = item := by
      simpa using hfault
    exact notes_of_messages hwalk

end Netfilter.Log
