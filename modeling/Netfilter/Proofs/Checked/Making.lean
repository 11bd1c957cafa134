import Netfilter.Proofs.Checked.Basic
import Netfilter.Proofs.Wire.Making

/-!
# A message made in one buffer

The calls of `Draft.Edit` on a message that is one growing buffer, header
included, in which lengths and header fields are written over at their offsets.
Every index, range and sum is checked. As long as everything fits into memory
no call breaks down, and the buffer holds the bytes of the draft throughout.
-/

namespace Netfilter

namespace Checked

/-- The most bytes a buffer can hold, which is the largest signed word. -/
def room : Nat := 2 ^ 63 - 1

def grow (buf more : Bytes) : Checked Bytes :=
  if buf.length + more.length ≤ room then .ok (buf ++ more) else .error .overflow

def resize (buf : Bytes) (n : Nat) : Checked Bytes :=
  if n ≤ buf.length then .ok (buf.take n) else grow buf (List.replicate (n - buf.length) 0)

def pad (buf : Bytes) : Checked Bytes := do
  let aligned ← alignUp buf.length
  resize buf aligned

def overwrite (buf : Bytes) (i j : Nat) (data : Bytes) : Checked Bytes :=
  if i ≤ j ∧ j ≤ buf.length ∧ data.length = j - i then .ok (buf.take i ++ data ++ buf.drop j)
  else .error .outOfRange

theorem grow_eq {buf more : Bytes} (h : buf.length + more.length ≤ room) :
    grow buf more = .ok (buf ++ more) := if_pos h

theorem overwrite_eq {buf data : Bytes} {i j : Nat} (hj : j ≤ buf.length)
    (hdata : i + data.length = j) : overwrite buf i j data = .ok (buf.take i ++ data ++ buf.drop j) :=
  if_pos (by omega)

theorem pad_eq {buf : Bytes} (h : Bytes.alignUp buf.length ≤ room) :
    pad buf = .ok (Bytes.padded buf) := by
  have hle := Bytes.le_alignUp buf.length
  have hword : buf.length + 4 < word := by
    unfold room at h
    unfold word
    omega
  rw [pad, alignUp_eq hword, ok_bind, resize]
  by_cases hfull : Bytes.alignUp buf.length ≤ buf.length
  · rw [if_pos hfull, Bytes.padded, Nat.sub_eq_zero_of_le hfull, List.replicate_zero,
      List.append_nil, List.take_of_length_le hle]
  · rw [if_neg hfull, grow_eq (by rw [List.length_replicate]; omega), Bytes.padded]

theorem foldlM_grow_eq {parts : List Bytes} {buf : Bytes}
    (h : buf.length + parts.flatten.length ≤ room) :
    parts.foldlM grow buf = .ok (buf ++ parts.flatten) := by
  induction parts generalizing buf with
  | nil =>
      rw [List.flatten_nil, List.append_nil]
      rfl
  | cons part parts ih =>
      rw [List.flatten_cons, List.length_append] at h
      have hpart : buf.length + part.length ≤ room := by omega
      rw [List.foldlM_cons, grow_eq hpart, ok_bind,
        ih (by rw [List.length_append]; omega), List.flatten_cons, List.append_assoc]

/-- A message under construction as one buffer, and where the nests opened in it start. -/
structure Buffer where
  bytes : Bytes
  nests : List Nat := []

namespace Buffer

def push (b : Buffer) (parts : List Bytes) : Checked (Except Error Unit × Buffer) := do
  let bytes ← parts.foldlM grow b.bytes
  let bytes ← pad bytes
  .ok (.ok (), { b with bytes })

def pushAttribute (b : Buffer) (rawType : UInt16) (length : Nat) (parts : List Bytes) :
    Checked (Except Error Unit × Buffer) :=
  match Attribute.Header.forValue rawType length with
  | .error e => .ok (.error e, b)
  | .ok header => b.push (header.encode :: parts)

/-- Here it is taken for granted that the value is short enough. -/
def pushShort (b : Buffer) (rawType : UInt16) (value : Bytes) :
    Checked (Except Error Unit × Buffer) :=
  if Attribute.maxValue < value.length then .error .overflow
  else do
    let length ← add word Attribute.headerSize value.length
    b.push [Attribute.Header.encode ⟨UInt16.ofNat length, rawType⟩, value]

def set (b : Buffer) (i j : Nat) (data : Bytes) : Checked (Except Error Unit × Buffer) := do
  let bytes ← overwrite b.bytes i j data
  .ok (.ok (), { b with bytes })

def word16At (b : Buffer) (i : Nat) : Checked UInt16 := do
  let low ← byteAt b.bytes i
  let high ← byteAt b.bytes (i + 1)
  .ok (UInt16.ofNat (Bytes.ofLittle [low, high]))

def closeNest (b : Buffer) (start : Nat) : Checked (Except Error Unit × Buffer) := do
  let length ← sub b.bytes.length start
  if length < 65536 then do
    let stop ← add word start 2
    let bytes ← overwrite b.bytes start stop (Bytes.little 2 length)
    let bytes ← pad bytes
    .ok (.ok (), { b with bytes })
  else .ok (.error (.invalidAttribute (.oversizedNest length)), b)

def edit (b : Buffer) : Draft.Edit → Checked (Except Error Unit × Buffer)
  | .append data => b.push [data]
  | .add rawType value => b.pushAttribute rawType value.length [value]
  | .record rawType value _ => b.pushShort rawType value
  | .word8 rawType value => b.pushShort rawType [value]
  | .word16 rawType value => b.pushShort rawType (Bytes.big 2 value.toNat)
  | .word32 rawType value => b.pushShort rawType (Bytes.big 4 value.toNat)
  | .text rawType value => do
      let length ← add word (Utf8.encode value).length 1
      b.pushAttribute rawType length [Utf8.encode value, [0]]
  | .openNest rawType => do
      let header : Attribute.Header := ⟨0, rawType ||| UInt16.ofNat Attribute.nestedBit⟩
      let bytes ← grow b.bytes header.encode
      .ok (.ok (), ⟨bytes, b.nests ++ [b.bytes.length]⟩)
  | .closeNest number =>
      match b.nests[number]? with
      | some start => b.closeNest start
      | none => .ok (.ok (), b)
  | .setFlags flags => b.set 6 8 (Bytes.little 2 flags.toNat)
  | .addFlags flags => do
      let current ← b.word16At 6
      b.set 6 8 (Bytes.little 2 (current ||| flags).toNat)
  | .setSeq seq => b.set 8 12 (Bytes.little 4 seq.toNat)
  | .setPort port => b.set 12 16 (Bytes.little 4 port.toNat)

def run (b : Buffer) : List Draft.Edit → Checked (List (Except Error Unit) × Buffer)
  | [] => .ok ([], b)
  | edit :: edits => do
      let (result, b) ← b.edit edit
      let (results, b) ← b.run edits
      .ok (result :: results, b)

def begun : Draft.Start → Checked Buffer
  | .bare type flags => .ok { bytes := (Message.Header.bare type flags).encode }
  | .netfilter subsystem operation flags family resource => do
      let header := Message.Header.bare (Message.typeOf subsystem operation) flags
      let (_, b) ← push { bytes := header.encode } [FamilyHeader.encode { family, resource }]
      .ok b

def finish (b : Buffer) : Checked Bytes :=
  overwrite b.bytes 0 4 (Bytes.little 4 (UInt32.ofNat b.bytes.length).toNat)

def ofWorkpiece (w : Draft.Workpiece) : Buffer :=
  ⟨w.draft.bytes, w.nests.map (Message.headerSize + ·.offset)⟩

open Draft (Workpiece Edit Start)

theorem push_eq {b : Buffer} (haligned : b.bytes.length % 4 = 0) {parts : List Bytes}
    (hroom : b.bytes.length + Bytes.alignUp parts.flatten.length ≤ room) :
    b.push parts = .ok (.ok (), { b with bytes := b.bytes ++ Bytes.padded parts.flatten }) := by
  have hle := Bytes.le_alignUp parts.flatten.length
  have halign : Bytes.alignUp (b.bytes ++ parts.flatten).length ≤ room := by
    rw [List.length_append, Bytes.alignUp_add_of_mod_eq_zero haligned]
    exact hroom
  rw [push, foldlM_grow_eq (by omega), ok_bind, pad_eq halign, ok_bind,
    Bytes.padded_append haligned]

variable {w : Workpiece}

theorem length_bytes_mod (h : w.Sound) : (ofWorkpiece w).bytes.length % 4 = 0 := by
  have haligned := h.aligned
  unfold Draft.Aligned at haligned
  change w.draft.bytes.length % 4 = 0
  rw [Draft.length_bytes, Draft.size, Message.headerSize]
  omega

theorem push_ofWorkpiece (h : w.Sound) (parts : List Bytes) {bs : Bytes}
    (hbs : Bytes.padded parts.flatten = bs) (hroom : (w.draft.extend bs).size ≤ room) :
    (ofWorkpiece w).push parts =
      .ok (.ok (), ofWorkpiece { w with draft := w.draft.extend bs }) := by
  subst hbs
  have hsize : (ofWorkpiece w).bytes.length + Bytes.alignUp parts.flatten.length ≤ room := by
    rw [Draft.size, Draft.body_extend, List.length_append, Bytes.length_padded] at hroom
    change w.draft.bytes.length + _ ≤ room
    rw [Draft.length_bytes, Draft.size]
    omega
  rw [push_eq (length_bytes_mod h) hsize]
  simp only [ofWorkpiece, Draft.bytes_extend]

theorem pushAttribute_ofWorkpiece (h : w.Sound) (rawType : UInt16) {length : Nat} {value : Bytes}
    {parts : List Bytes} (hlength : length = value.length) (hparts : parts.flatten = value)
    (hroom : (w.attempt (w.draft.add rawType value)).2.draft.size ≤ room) :
    (ofWorkpiece w).pushAttribute rawType length parts =
      .ok ((w.attempt (w.draft.add rawType value)).1,
        ofWorkpiece (w.attempt (w.draft.add rawType value)).2) := by
  subst hlength
  let a : Attribute := ⟨rawType, value⟩
  by_cases hfits : a.Fits
  · have hsize : Attribute.headerSize + value.length < 65536 := hfits.size_lt
    rw [Draft.add_of_fits h.aligned a hfits] at hroom ⊢
    rw [pushAttribute, Attribute.Header.forValue, if_pos hsize]
    refine push_ofWorkpiece h _ ?_ hroom
    rw [List.flatten_cons, hparts]
    exact (a.encode_eq_padded hfits).symm
  · have hsize : ¬ Attribute.headerSize + value.length < 65536 := by
      unfold Attribute.Fits Attribute.maxValue at hfits
      change ¬ value.length ≤ _ at hfits
      omega
    rw [Draft.add_of_not_fits w.draft a hfits, pushAttribute, Attribute.Header.forValue,
      if_neg hsize]
    rfl

theorem pushShort_ofWorkpiece (h : w.Sound) (rawType : UInt16) {value : Bytes}
    (hfits : value.length ≤ Attribute.maxValue)
    (hroom : (w.draft.short rawType value).size ≤ room) :
    (ofWorkpiece w).pushShort rawType value =
      .ok (.ok (), ofWorkpiece { w with draft := w.draft.short rawType value }) := by
  let a : Attribute := ⟨rawType, value⟩
  have hword : Attribute.headerSize + value.length < word := by
    unfold Attribute.maxValue Attribute.headerSize at hfits
    unfold Attribute.headerSize word
    omega
  rw [Draft.short_of_fits h.aligned a hfits] at hroom ⊢
  rw [pushShort, if_neg (by omega), add_eq hword, ok_bind]
  refine push_ofWorkpiece h _ ?_ hroom
  rw [List.flatten_cons, List.flatten_cons, List.flatten_nil, List.append_nil]
  exact (a.encode_eq_padded hfits).symm

theorem closeNest_ofWorkpiece (h : w.Sound) {number : Nat} {nest : Draft.Nest}
    (hnest : w.nests[number]? = some nest) (hroom : w.draft.size ≤ room) :
    (ofWorkpiece w).closeNest (Message.headerSize + nest.offset) =
      .ok ((w.attempt (w.draft.closeNest nest)).1,
        ofWorkpiece (w.attempt (w.draft.closeNest nest)).2) := by
  have hinside := h.nests nest (List.mem_of_getElem? hnest)
  have hbytes : (ofWorkpiece w).bytes.length = w.draft.size := w.draft.length_bytes
  have hstart : Message.headerSize + nest.offset + 4 ≤ (ofWorkpiece w).bytes.length := by
    unfold Attribute.headerSize at hinside
    rw [hbytes, Draft.size]
    omega
  have hdistance : (ofWorkpiece w).bytes.length - (Message.headerSize + nest.offset) =
      w.draft.body.length - nest.offset := by
    rw [hbytes, Draft.size]
    omega
  rw [closeNest, sub_eq (by omega), ok_bind, hdistance]
  -- the length of a nest is patched in place only if two bytes hold it
  by_cases hfits : w.draft.body.length - nest.offset < 65536
  · have hword : Message.headerSize + nest.offset + 2 < word := by
      unfold room at hroom
      unfold word
      omega
    have hpatched : (ofWorkpiece w).bytes.take (Message.headerSize + nest.offset) ++
        Bytes.little 2 (w.draft.body.length - nest.offset) ++
        (ofWorkpiece w).bytes.drop (Message.headerSize + nest.offset + 2) =
        (w.draft.patch nest).bytes := by
      rw [Draft.bytes_patch, ← hdistance]
      rfl
    have hsize : (w.draft.patch nest).bytes.length = w.draft.size := by
      rw [Draft.length_bytes, Draft.size, Workpiece.length_patch hinside, Draft.size]
    have hwords : (w.draft.patch nest).bytes.length % 4 = 0 := by
      rw [hsize, ← hbytes]
      exact length_bytes_mod h
    rw [if_pos hfits, add_eq hword, ok_bind, overwrite_eq (by omega) (by simp), ok_bind, hpatched,
      pad_eq (by rw [Bytes.alignUp_of_mod_eq_zero hwords, hsize]; exact hroom), ok_bind,
      Bytes.padded_of_mod_eq_zero hwords, Workpiece.closeNest_eq_patch h.aligned hinside hfits]
    rfl
  · rw [if_neg hfits, Draft.closeNest_of_not_lt hfits]
    rfl

theorem word16At_six (w : Workpiece) : (ofWorkpiece w).word16At 6 = .ok w.draft.flags :=
  congrArg Except.ok (Bytes.ofLittle_little_word16 w.draft.flags)

theorem word16At_four (w : Workpiece) : (ofWorkpiece w).word16At 4 = .ok w.draft.type :=
  congrArg Except.ok (Bytes.ofLittle_little_word16 w.draft.type)

theorem set_ofWorkpiece (w : Workpiece) {i j : Nat} {data : Bytes} {draft : Draft}
    (hdata : i + data.length = j) (hj : j ≤ Message.headerSize)
    (hbytes : w.draft.bytes.take i ++ data ++ w.draft.bytes.drop j = draft.bytes) :
    (ofWorkpiece w).set i j data = .ok (.ok (), ofWorkpiece { w with draft }) := by
  have hlength : j ≤ (ofWorkpiece w).bytes.length := by
    change j ≤ w.draft.bytes.length
    rw [Draft.length_bytes, Draft.size]
    omega
  rw [set, overwrite_eq hlength hdata, ok_bind]
  exact congrArg (fun bytes => Except.ok (Except.ok (), Buffer.mk bytes _)) hbytes

theorem openNest_ofWorkpiece (w : Workpiece) (rawType : UInt16)
    (hroom : (w.edit (.openNest rawType)).2.draft.size ≤ room) :
    (ofWorkpiece w).edit (.openNest rawType) =
      .ok (.ok (), ofWorkpiece (w.edit (.openNest rawType)).2) := by
  let header : Attribute.Header := ⟨0, rawType ||| UInt16.ofNat Attribute.nestedBit⟩
  have hsize : w.draft.bytes.length + header.encode.length ≤ room := by
    change (w.draft.extend header.encode).size ≤ room at hroom
    rw [Draft.size, Draft.body_extend, List.length_append] at hroom
    rw [Draft.length_bytes, Draft.size]
    omega
  have hgrown : grow (ofWorkpiece w).bytes header.encode =
      .ok (w.draft.extend header.encode).bytes := by
    rw [Draft.bytes_extend]
    exact grow_eq hsize
  have hnests : (ofWorkpiece ⟨w.draft, w.nests ++ [⟨w.draft.body.length⟩]⟩).nests =
      (ofWorkpiece w).nests ++ [(ofWorkpiece w).bytes.length] := by
    change List.map _ (_ ++ [_]) = _
    rw [List.map_append]
    exact congrArg (fun n => _ ++ [n]) w.draft.length_bytes.symm
  rw [Buffer.edit, hgrown, ok_bind, ← hnests]
  rfl

/-- A call does not break down and does to the buffer what it does to the draft. -/
theorem edit_eq (h : w.Sound) (edit : Edit) (hdata : edit.data.length ≤ room)
    (hroom : (w.edit edit).2.draft.size ≤ room) :
    (ofWorkpiece w).edit edit = .ok ((w.edit edit).1, ofWorkpiece (w.edit edit).2) := by
  -- there are few ways to write: to grow, to open or close a nest, or to patch the header
  cases edit with
  | append data =>
      have hgrown : (w.draft.append data).size ≤ room := hroom
      rw [Draft.append_eq_extend h.aligned] at hgrown
      have hpush := push_ofWorkpiece h [data]
        (congrArg Bytes.padded (by rw [List.flatten_cons, List.flatten_nil, List.append_nil])) hgrown
      rw [← Draft.append_eq_extend h.aligned] at hpush
      exact hpush
  | add rawType value =>
      exact pushAttribute_ofWorkpiece h rawType rfl
        (by rw [List.flatten_cons, List.flatten_nil, List.append_nil]) hroom
  | record rawType value fits => exact pushShort_ofWorkpiece h rawType fits hroom
  | word8 rawType value =>
      exact pushShort_ofWorkpiece h rawType (by simp [Attribute.maxValue, Attribute.headerSize]) hroom
  | word16 rawType value =>
      exact pushShort_ofWorkpiece h rawType (by simp [Attribute.maxValue, Attribute.headerSize]) hroom
  | word32 rawType value =>
      exact pushShort_ofWorkpiece h rawType (by simp [Attribute.maxValue, Attribute.headerSize]) hroom
  | text rawType value =>
      have hword : (Utf8.encode value).length + 1 < word := by
        change (Utf8.encode value).length ≤ room at hdata
        unfold room at hdata
        unfold word
        omega
      rw [Buffer.edit, add_eq hword, ok_bind]
      exact pushAttribute_ofWorkpiece h rawType (by rw [List.length_append, List.length_singleton])
        (by rw [List.flatten_cons, List.flatten_cons, List.flatten_nil, List.append_nil]) hroom
  | openNest rawType => exact openNest_ofWorkpiece w rawType hroom
  | closeNest number =>
      have hnests : (ofWorkpiece w).nests[number]? =
          (w.nests[number]?).map (Message.headerSize + ·.offset) := List.getElem?_map ..
      cases hfound : w.nests[number]? with
      | none =>
          rw [Workpiece.edit_closeNest_of_none hfound]
          simp only [Buffer.edit, hnests, hfound, Option.map_none]
      | some nest =>
          have hsize := ((h.change (.closeNest number)).length_le h).trans hroom
          rw [Workpiece.edit_closeNest_of_some hfound]
          simp only [Buffer.edit, hnests, hfound, Option.map_some]
          exact closeNest_ofWorkpiece h hfound hsize
  | setFlags flags => exact set_ofWorkpiece w rfl (by decide) rfl
  | addFlags flags =>
      rw [Buffer.edit, word16At_six, ok_bind]
      exact set_ofWorkpiece w rfl (by decide) rfl
  | setSeq seq => exact set_ofWorkpiece w rfl (by decide) rfl
  | setPort port => exact set_ofWorkpiece w rfl (by decide) rfl

theorem run_eq (h : w.Sound) (edits : List Edit) (hdata : ∀ edit ∈ edits, edit.data.length ≤ room)
    (hroom : (w.run edits).draft.size ≤ room) :
    (ofWorkpiece w).run edits = .ok (w.results edits, ofWorkpiece (w.run edits)) := by
  induction edits generalizing w with
  | nil => rfl
  | cons edit edits ih =>
      obtain ⟨hfirst, hlater⟩ := List.forall_mem_cons.1 hdata
      have hsound := (h.change edit).sound h
      have hsize := (hsound.size_le_run edits).trans hroom
      rw [run, edit_eq h edit hfirst hsize, ok_bind]
      simp only [ih hsound hlater hroom, ok_bind]
      rfl

theorem begun_eq (start : Start) : begun start = .ok (ofWorkpiece ⟨start.draft, []⟩) := by
  cases start with
  | bare type flags => rfl
  | netfilter subsystem operation flags family resource =>
      have hbare : Workpiece.Sound ⟨{ type := Message.typeOf subsystem operation, flags }, []⟩ :=
        Workpiece.sound_start (.bare _ flags)
      let header : FamilyHeader := { family, resource }
      have hroom : 20 ≤ room := by decide
      have hpadded : Bytes.padded [header.encode].flatten = header.encode := by
        rw [List.flatten_cons, List.flatten_nil, List.append_nil]
        exact Bytes.padded_of_mod_eq_zero (by simp [FamilyHeader.encode])
      have hpush := push_ofWorkpiece hbare [header.encode] hpadded hroom
      rw [begun]
      exact congrArg (· >>= _) hpush

theorem finish_ofWorkpiece (w : Workpiece) : (ofWorkpiece w).finish = .ok w.draft.finish := by
  have hlength : (ofWorkpiece w).bytes.length = w.draft.size := w.draft.length_bytes
  have hlong : 4 ≤ (ofWorkpiece w).bytes.length := by
    rw [hlength, Draft.size, Message.headerSize]
    omega
  rw [finish, overwrite_eq hlong (by rw [Bytes.length_little]), hlength]
  rfl

end Buffer

end Checked

namespace Draft

open Checked (Buffer room)

/-- What holds of a workpiece that was begun as `start` and on which the calls `edits` were made,
and of one more call on it. -/
structure Kept (start : Start) (edits : List Edit) (w : Workpiece) : Prop where
  words : w.draft.bytes.length % 4 = 0 ∧ 16 ≤ w.draft.bytes.length
  header : Message.Header.decode w.draft.bytes = .ok ⟨16, start.type,
    Edit.flagsAfter start.flags edits, Edit.seqAfter edits, Edit.portAfter edits⟩
  headerStays : ∀ edit, edit.sets = false →
    (w.edit edit).2.draft.bytes.take 16 = w.draft.bytes.take 16
  bodyStays : ∀ edit, edit.sets = true →
    (w.edit edit).2.draft.bytes.drop 16 = w.draft.bytes.drop 16
  appended : ∀ edit, edit.appends = true → w.draft.bytes <+: (w.edit edit).2.draft.bytes
  opened : ∀ rawType,
    (w.edit (.openNest rawType)).2.nests = w.nests ++ [⟨w.draft.bytes.length - 16⟩]
  closed : ∀ number nest, w.nests[number]? = some nest → (w.edit (.closeNest number)).1 = .ok () →
    16 + nest.offset + 4 ≤ w.draft.bytes.length ∧
      w.draft.bytes.length - (16 + nest.offset) < 65536 ∧
      (w.edit (.closeNest number)).2.draft.bytes = w.draft.bytes.take (16 + nest.offset) ++
        Bytes.little 2 (w.draft.bytes.length - (16 + nest.offset)) ++
        w.draft.bytes.drop (16 + nest.offset + 2)
  failed : ∀ edit e, (w.edit edit).1 = .error e → (w.edit edit).2 = w
  finished : w.draft.finish.drop 4 = w.draft.bytes.drop 4 ∧ w.draft.finish.length =
    w.draft.bytes.length ∧ Bytes.ofLittle (w.draft.finish.take 4) = w.draft.bytes.length % 2 ^ 32
  /-- No call breaks down as long as all that is handed over fits into memory, and the message. -/
  unbroken : (∀ edit ∈ edits, edit.data.length ≤ room) → w.draft.bytes.length ≤ room →
    ∃ b, Buffer.begun start = .ok b ∧
      b.run edits = .ok (Workpiece.results ⟨start.draft, []⟩ edits, Buffer.ofWorkpiece w) ∧
      (Buffer.ofWorkpiece w).word16At 4 = .ok start.type ∧
      (Buffer.ofWorkpiece w).finish = .ok w.draft.finish

namespace Workpiece.Change

variable {w w' : Workpiece} {edit : Edit} {result : Except Error Unit}

theorem take_bytes (hc : Change w edit result w') (hsets : edit.sets = false) :
    w'.draft.bytes.take 16 = w.draft.bytes.take 16 := by
  cases hc with
  | refused | absent => rfl
  | grown | opened | closed =>
      exact (Draft.take_bytes _).trans (Draft.take_bytes _).symm
  | header hset => simp [hsets] at hset

theorem drop_bytes (hc : Change w edit result w') (hsets : edit.sets = true) :
    w'.draft.bytes.drop 16 = w.draft.bytes.drop 16 := by
  cases hc with
  | refused e hset => simp [hsets] at hset
  | grown happends => cases edit <;> simp_all [Edit.appends, Edit.sets]
  | opened | closed | absent => cases hsets
  | header =>
      exact (Draft.drop_bytes _).trans ((body_onHeader _ _).trans (Draft.drop_bytes _).symm)

theorem isPrefix (hc : Change w edit result w') (happends : edit.appends = true) :
    w.draft.bytes <+: w'.draft.bytes := by
  cases hc with
  | refused => exact List.prefix_rfl
  | grown | opened =>
      rw [bytes_extend]
      exact List.prefix_append _ _
  | closed | absent => cases happends
  | header hsets => cases edit <;> simp_all [Edit.appends, Edit.sets]

theorem eq_of_error (hc : Change w edit result w') {e : Error} (he : result = .error e) :
    w' = w := by
  cases hc with
  | refused => rfl
  | grown | opened | closed | absent | header => cases he

end Workpiece.Change

theorem closed_of_ok {w : Workpiece} (h : w.Sound) {number : Nat} {nest : Nest}
    (hnest : w.nests[number]? = some nest) (hok : (w.edit (.closeNest number)).1 = .ok ()) :
    16 + nest.offset + 4 ≤ w.draft.bytes.length ∧
      w.draft.bytes.length - (16 + nest.offset) < 65536 ∧
      (w.edit (.closeNest number)).2.draft.bytes = w.draft.bytes.take (16 + nest.offset) ++
        Bytes.little 2 (w.draft.bytes.length - (16 + nest.offset)) ++
        w.draft.bytes.drop (16 + nest.offset + 2) := by
  have hinside := h.nests nest (List.mem_of_getElem? hnest)
  rw [Workpiece.edit_closeNest_of_some hnest] at hok ⊢
  by_cases hfits : w.draft.body.length - nest.offset < 65536
  · rw [Workpiece.closeNest_eq_patch h.aligned hinside hfits, length_bytes, size]
    unfold Attribute.headerSize at hinside
    refine ⟨?_, ?_, ?_⟩
    · rw [Message.headerSize]
      omega
    · rw [Message.headerSize]
      omega
    · have hpatch := bytes_patch w.draft nest
      rw [length_bytes, size] at hpatch
      exact hpatch
  · rw [closeNest_of_not_lt hfits] at hok
    cases hok

/-- Whatever is called on a message under construction, in whatever order. -/
theorem kept_make (start : Start) (edits : List Edit) : Kept start edits (start.make edits) := by
  have h := Workpiece.sound_make start edits
  obtain ⟨htype, hflags, hseq, hport⟩ := Workpiece.fields_make start edits
  generalize hw : start.make edits = w at *
  have hlength : w.draft.bytes.length = 16 + w.draft.body.length := w.draft.length_bytes
  -- what was said of one call holds of whatever the calls before have made
  refine ⟨⟨?_, ?_⟩, ?_, ?_, ?_, ?_, ?_, ?_, ?_, ⟨?_, ?_, ?_⟩, ?_⟩
  · exact Buffer.length_bytes_mod h
  · omega
  · rw [← htype, ← hflags, ← hseq, ← hport]
    exact Message.Header.decode_encode_append _ _
  · exact fun edit => (h.change edit).take_bytes
  · exact fun edit => (h.change edit).drop_bytes
  · exact fun edit => (h.change edit).isPrefix
  · intro rawType
    rw [hlength, Nat.add_sub_cancel_left]
    rfl
  · exact fun number nest => closed_of_ok h
  · exact fun edit e => (h.change edit).eq_of_error
  · exact drop_withLength ..
  · rw [length_finish, length_bytes]
  · rw [finish, take_withLength, Bytes.ofLittle_little, UInt32.toNat_ofNat', ← length_bytes]
    exact Nat.mod_mod _ _
  · intro hdata hroom
    refine ⟨_, Buffer.begun_eq start, ?_, ?_, Buffer.finish_ofWorkpiece w⟩
    · rw [length_bytes] at hroom
      subst hw
      exact Buffer.run_eq (Workpiece.sound_start start) edits hdata hroom
    · rw [Buffer.word16At_four, htype]

/-- The outer of two nests is closed before the inner one, and then once more. -/
def sampleEdits : List Edit :=
  [.openNest 1, .openNest 2, .word8 3 9, .closeNest 0, .addFlags 4, .append [5], .closeNest 1,
    .closeNest 0, .setSeq 7]

theorem kept_make_sampleEdits : ∃ b, Buffer.begun (.bare 16 1) = .ok b ∧
    b.run sampleEdits = .ok (List.replicate 9 (.ok ()),
      ⟨[16, 0, 0, 0, 16, 0, 5, 0, 7, 0, 0, 0, 0, 0, 0, 0, 20, 0, 1, 128, 16, 0, 2, 128,
        5, 0, 3, 0, 9, 0, 0, 0, 5, 0, 0, 0], [16, 20]⟩) := by
  obtain ⟨b, hb, hrun, -⟩ :=
    (kept_make (.bare 16 1) sampleEdits).unbroken (by decide) (by decide)
  exact ⟨b, hb, hrun.trans (by rfl)⟩

end Draft

end Netfilter
