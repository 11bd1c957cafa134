import Netfilter.Proofs.Wire.Draft

/-!
# What happens to a message under construction

A message is begun and then worked on by any calls in any order; each nest may
be closed whenever it was opened, out of order and again. `Change` says all that
one call can do: it is refused, it adds whole words at the end, it opens or
closes a nest, or it sets a field of the header. So the length stays a multiple
of four, and the header only ever changes by what is set in it.
-/

namespace Netfilter.Draft

inductive Start
  | bare (type flags : UInt16)
  | netfilter (subsystem operation : UInt8) (flags : UInt16) (family : UInt8) (resource : UInt16)
  deriving DecidableEq, Repr

namespace Start

def type : Start → UInt16
  | bare type _ => type
  | netfilter subsystem operation _ _ _ => Message.typeOf subsystem operation

def flags : Start → UInt16
  | bare _ flags => flags
  | netfilter _ _ flags _ _ => flags

def draft : Start → Draft
  | bare type flags => { type, flags }
  | netfilter subsystem operation flags family resource =>
      Draft.netfilter subsystem operation flags family resource

end Start

inductive Edit
  /-- Appends bytes, or a record. -/
  | append (data : Bytes)
  | add (rawType : UInt16) (value : Bytes)
  /-- Appends an attribute that holds a record of a size known to fit. -/
  | record (rawType : UInt16) (value : Bytes) (fits : value.length ≤ Attribute.maxValue)
  | word8 (rawType : UInt16) (value : UInt8)
  | word16 (rawType : UInt16) (value : UInt16)
  | word32 (rawType : UInt16) (value : UInt32)
  | text (rawType : UInt16) (value : String)
  | openNest (rawType : UInt16)
  /-- Closes the nest that was opened as the one of this number. -/
  | closeNest (number : Nat)
  | setFlags (flags : UInt16)
  | addFlags (flags : UInt16)
  | setSeq (seq : UInt32)
  | setPort (port : UInt32)

namespace Edit

def appends : Edit → Bool
  | append _ | add .. | record .. | word8 .. | word16 .. | word32 .. | text .. | openNest _ => true
  | _ => false

def sets : Edit → Bool
  | setFlags _ | addFlags _ | setSeq _ | setPort _ => true
  | _ => false

def data : Edit → Bytes
  | append data | add _ data | record _ data _ => data
  | text _ value => Utf8.encode value
  | _ => []

def onHeader (d : Draft) : Edit → Draft
  | setFlags flags => { d with flags }
  | addFlags flags => d.addFlags flags
  | setSeq seq => { d with seq }
  | setPort port => { d with port }
  | _ => d

def seq? : Edit → Option UInt32
  | setSeq seq => some seq
  | _ => none

def port? : Edit → Option UInt32
  | setPort port => some port
  | _ => none

/-- The flags that were set last, with those added since. -/
def flagsAfter (begun : UInt16) (edits : List Edit) : UInt16 :=
  edits.foldl (fun flags edit =>
    match edit with
    | setFlags set => set
    | addFlags added => flags ||| added
    | _ => flags) begun

def seqAfter (edits : List Edit) : UInt32 := (edits.filterMap seq?).getLast?.getD 0

def portAfter (edits : List Edit) : UInt32 := (edits.filterMap port?).getLast?.getD 0

end Edit

/-- A draft, and the nests in it in the order in which they were opened. -/
structure Workpiece where
  draft : Draft
  nests : List Nest := []

namespace Workpiece

def keep (w : Workpiece) (draft : Draft) : Except Error Unit × Workpiece :=
  (.ok (), { w with draft })

def attempt (w : Workpiece) : Except Error Draft → Except Error Unit × Workpiece
  | .ok draft => w.keep draft
  | .error e => (.error e, w)

def edit (w : Workpiece) : Edit → Except Error Unit × Workpiece
  | .append data => w.keep (w.draft.append data)
  | .add rawType value => w.attempt (w.draft.add rawType value)
  | .record rawType value _ => w.keep (w.draft.short rawType value)
  | .word8 rawType value => w.keep (w.draft.word8 rawType value)
  | .word16 rawType value => w.keep (w.draft.word16 rawType value)
  | .word32 rawType value => w.keep (w.draft.word32 rawType value)
  | .text rawType value => w.attempt (w.draft.text rawType value)
  | .openNest rawType =>
      let (draft, nest) := w.draft.openNest rawType
      (.ok (), ⟨draft, w.nests ++ [nest]⟩)
  | .closeNest number =>
      match w.nests[number]? with
      | some nest => w.attempt (w.draft.closeNest nest)
      | none => (.ok (), w)
  | edit => w.keep (edit.onHeader w.draft)

theorem edit_closeNest_of_some {w : Workpiece} {number : Nat} {nest : Nest}
    (h : w.nests[number]? = some nest) :
    w.edit (.closeNest number) = w.attempt (w.draft.closeNest nest) := by
  simp only [edit, h]

theorem edit_closeNest_of_none {w : Workpiece} {number : Nat} (h : w.nests[number]? = none) :
    w.edit (.closeNest number) = (.ok (), w) := by
  simp only [edit, h]

def run (w : Workpiece) (edits : List Edit) : Workpiece :=
  edits.foldl (fun w edit => (w.edit edit).2) w

def results (w : Workpiece) : List Edit → List (Except Error Unit)
  | [] => []
  | edit :: edits => (w.edit edit).1 :: (w.edit edit).2.results edits

theorem run_append_singleton (w : Workpiece) (edits : List Edit) (edit : Edit) :
    w.run (edits ++ [edit]) = ((w.run edits).edit edit).2 := List.foldl_append

end Workpiece

def Start.make (start : Start) (edits : List Edit) : Workpiece :=
  Workpiece.run ⟨start.draft, []⟩ edits

/-- The draft in which the length of a nest is told as the distance from it to the end. -/
def patch (d : Draft) (nest : Nest) : Draft :=
  { d with body := d.body.take nest.offset ++ Bytes.little 2 (d.body.length - nest.offset) ++
      d.body.drop (nest.offset + 2) }

namespace Workpiece

structure Sound (w : Workpiece) : Prop where
  aligned : w.draft.Aligned
  nests : ∀ nest ∈ w.nests, nest.offset + Attribute.headerSize ≤ w.draft.body.length

inductive Change (w : Workpiece) : Edit → Except Error Unit → Workpiece → Prop
  | refused {edit : Edit} (e : Error) (hsets : edit.sets = false) : Change w edit (.error e) w
  | grown {edit : Edit} {bs : Bytes} (happends : edit.appends = true)
      (words : bs.length % 4 = 0) : Change w edit (.ok ()) { w with draft := w.draft.extend bs }
  | opened {rawType : UInt16} {bs : Bytes} (size : bs.length = Attribute.headerSize) :
      Change w (.openNest rawType) (.ok ())
        ⟨w.draft.extend bs, w.nests ++ [⟨w.draft.body.length⟩]⟩
  | closed {number : Nat} {nest : Nest} (found : w.nests[number]? = some nest)
      (fits : w.draft.body.length - nest.offset < 65536) :
      Change w (.closeNest number) (.ok ()) { w with draft := w.draft.patch nest }
  | absent {number : Nat} (missing : w.nests[number]? = none) :
      Change w (.closeNest number) (.ok ()) w
  | header {edit : Edit} (hsets : edit.sets = true) :
      Change w edit (.ok ()) { w with draft := edit.onHeader w.draft }

variable {w w' : Workpiece} {edit : Edit} {result : Except Error Unit}

theorem change_add (h : w.Sound) (rawType : UInt16) (value : Bytes) {edit : Edit}
    (happends : edit.appends = true) (hsets : edit.sets = false) :
    Change w edit (w.attempt (w.draft.add rawType value)).1
      (w.attempt (w.draft.add rawType value)).2 := by
  by_cases hfits : Attribute.Fits ⟨rawType, value⟩
  · rw [add_of_fits h.aligned ⟨rawType, value⟩ hfits]
    exact .grown happends (Attribute.encode_mod _)
  · rw [add_of_not_fits w.draft ⟨rawType, value⟩ hfits]
    exact .refused _ hsets

theorem change_short (h : w.Sound) (rawType : UInt16) {value : Bytes}
    (hfits : value.length ≤ Attribute.maxValue) {edit : Edit} (happends : edit.appends = true) :
    Change w edit (.ok ()) { w with draft := w.draft.short rawType value } := by
  rw [short_of_fits h.aligned ⟨rawType, value⟩ hfits]
  exact .grown happends (Attribute.encode_mod _)

theorem length_patch {d : Draft} {nest : Nest}
    (h : nest.offset + Attribute.headerSize ≤ d.body.length) :
    (d.patch nest).body.length = d.body.length := by
  unfold Attribute.headerSize at h
  simp only [patch, List.length_append, List.length_take, Bytes.length_little, List.length_drop]
  omega

theorem closeNest_eq_patch {d : Draft} (haligned : d.Aligned) {nest : Nest}
    (h : nest.offset + Attribute.headerSize ≤ d.body.length)
    (hfits : d.body.length - nest.offset < 65536) : d.closeNest nest = .ok (d.patch nest) := by
  have hwords : (d.patch nest).body.length % 4 = 0 := by
    rw [length_patch h]
    exact haligned
  rw [closeNest_of_lt hfits]
  exact congrArg (fun body => Except.ok { d with body }) (Bytes.padded_of_mod_eq_zero hwords)

/-- All that a call can do to a sound workpiece. -/
theorem Sound.change (h : w.Sound) (edit : Edit) :
    Change w edit (w.edit edit).1 (w.edit edit).2 := by
  cases edit with
  | append data =>
      have hwords : (Bytes.padded data).length % 4 = 0 := by
        rw [Bytes.length_padded]
        exact Bytes.alignUp_mod _
      have hgrown : Change w (.append data) (.ok ())
          { w with draft := w.draft.extend (Bytes.padded data) } := .grown rfl hwords
      rwa [← append_eq_extend h.aligned] at hgrown
  | add rawType value => exact change_add h rawType value rfl rfl
  | record rawType value fits => exact change_short h rawType fits rfl
  | word8 rawType value =>
      exact change_short h rawType (by simp [Attribute.maxValue, Attribute.headerSize]) rfl
  | word16 rawType value =>
      exact change_short h rawType (by simp [Attribute.maxValue, Attribute.headerSize]) rfl
  | word32 rawType value =>
      exact change_short h rawType (by simp [Attribute.maxValue, Attribute.headerSize]) rfl
  | text rawType value => exact change_add h rawType (Utf8.encode value ++ [0]) rfl rfl
  | openNest rawType => exact .opened (Attribute.Header.length_encode _)
  | closeNest number =>
      cases hfound : w.nests[number]? with
      | none =>
          rw [edit_closeNest_of_none hfound]
          exact .absent hfound
      | some nest =>
          have hroom := h.nests nest (List.mem_of_getElem? hfound)
          rw [edit_closeNest_of_some hfound]
          by_cases hfits : w.draft.body.length - nest.offset < 65536
          · rw [closeNest_eq_patch h.aligned hroom hfits]
            exact .closed hfound hfits
          · rw [closeNest_of_not_lt hfits]
            exact .refused _ rfl
  | setFlags flags => exact .header rfl
  | addFlags flags => exact .header rfl
  | setSeq seq => exact .header rfl
  | setPort port => exact .header rfl

theorem body_onHeader (d : Draft) (edit : Edit) : (edit.onHeader d).body = d.body := by
  cases edit <;> rfl

namespace Change

theorem sound (hc : Change w edit result w') (h : w.Sound) : w'.Sound := by
  -- whole words join at the end and headers are patched in place, so no nest loses its header
  cases hc with
  | refused => exact h
  | @grown _ bs _ words =>
      refine ⟨h.aligned.extend words, fun nest hnest => ?_⟩
      have hroom := h.nests nest hnest
      simp only [body_extend, List.length_append]
      omega
  | @opened _ bs size =>
      refine ⟨h.aligned.extend (by rw [size]; rfl), fun nest hnest => ?_⟩
      simp only [body_extend, List.length_append, size]
      rcases List.mem_append.1 hnest with hold | hnew
      · have hroom := h.nests nest hold
        omega
      · obtain rfl := List.mem_singleton.1 hnew
        exact Nat.le_refl _
  | @closed _ nest found fits =>
      have hlength := length_patch (h.nests nest (List.mem_of_getElem? found))
      refine ⟨?_, fun other hother => ?_⟩
      · unfold Aligned
        rw [hlength]
        exact h.aligned
      · rw [hlength]
        exact h.nests other hother
  | absent => exact h
  | header =>
      refine ⟨?_, fun nest hnest => ?_⟩
      · unfold Aligned
        rw [body_onHeader]
        exact h.aligned
      · rw [body_onHeader]
        exact h.nests nest hnest

theorem length_le (hc : Change w edit result w') (h : w.Sound) :
    w.draft.size ≤ w'.draft.size := by
  cases hc with
  | refused | absent => exact Nat.le_refl _
  | grown | opened =>
      simp only [size, body_extend, List.length_append]
      omega
  | closed found => rw [size, size, length_patch (h.nests _ (List.mem_of_getElem? found))]
  | header => rw [size, size, body_onHeader]

theorem type_eq (hc : Change w edit result w') : w'.draft.type = w.draft.type := by
  cases hc with
  | refused | grown | opened | closed | absent => rfl
  | header => cases edit <;> rfl

/-- The fields of the header change by what is set in them, and not otherwise. -/
theorem fields (hc : Change w edit result w') :
    w'.draft.flags = Edit.flagsAfter w.draft.flags [edit] ∧
      w'.draft.seq = edit.seq?.getD w.draft.seq ∧
      w'.draft.port = edit.port?.getD w.draft.port := by
  cases hc with
  | refused e hsets =>
      cases edit with
      | setFlags | addFlags | setSeq | setPort => cases hsets
      | _ => exact ⟨rfl, rfl, rfl⟩
  | grown happends =>
      cases edit with
      | setFlags | addFlags | setSeq | setPort => cases happends
      | _ => exact ⟨rfl, rfl, rfl⟩
  | opened | closed | absent => exact ⟨rfl, rfl, rfl⟩
  | header => cases edit <;> exact ⟨rfl, rfl, rfl⟩

end Change

theorem sound_start (start : Start) : Sound ⟨start.draft, []⟩ := by
  refine ⟨?_, nofun⟩
  cases start with
  | bare type flags => rfl
  | netfilter subsystem operation flags family resource => exact aligned_netfilter ..

theorem Sound.run (h : w.Sound) (edits : List Edit) : (w.run edits).Sound := by
  induction edits generalizing w with
  | nil => exact h
  | cons edit edits ih => exact ih ((h.change edit).sound h)

theorem sound_make (start : Start) (edits : List Edit) : (start.make edits).Sound :=
  (sound_start start).run edits

theorem Sound.size_le_run (h : w.Sound) (edits : List Edit) :
    w.draft.size ≤ (w.run edits).draft.size := by
  induction edits generalizing w with
  | nil => exact Nat.le_refl _
  | cons edit edits ih =>
      have hfirst := (h.change edit).length_le h
      exact hfirst.trans (ih ((h.change edit).sound h))

theorem getD_getLast?_append {α : Type} (found : List α) (last : Option α) (begun : α) :
    ((found ++ last.toList).getLast?).getD begun = last.getD (found.getLast?.getD begun) := by
  cases last <;> simp

theorem fields_make (start : Start) (edits : List Edit) :
    (start.make edits).draft.type = start.type ∧
      (start.make edits).draft.flags = Edit.flagsAfter start.flags edits ∧
      (start.make edits).draft.seq = Edit.seqAfter edits ∧
      (start.make edits).draft.port = Edit.portAfter edits := by
  -- from the last call back, since a field holds what was set last
  induction edits using List.reverseRecOn with
  | nil => cases start <;> exact ⟨rfl, rfl, rfl, rfl⟩
  | append_singleton edits edit ih =>
      obtain ⟨htype, hflags, hseq, hport⟩ := ih
      have hchange := (sound_make start edits).change edit
      have hmake : start.make (edits ++ [edit]) = ((start.make edits).edit edit).2 :=
        run_append_singleton _ edits edit
      obtain ⟨hflags', hseq', hport'⟩ := hchange.fields
      rw [hmake]
      refine ⟨hchange.type_eq.trans htype, ?_, ?_, ?_⟩
      · rw [hflags', hflags, Edit.flagsAfter, Edit.flagsAfter, Edit.flagsAfter, List.foldl_append]
      · rw [hseq', hseq, Edit.seqAfter, Edit.seqAfter, List.filterMap_append,
          ← getD_getLast?_append]
        cases hs : edit.seq? <;> simp [hs]
      · rw [hport', hport, Edit.portAfter, Edit.portAfter, List.filterMap_append,
          ← getD_getLast?_append]
        cases hp : edit.port? <;> simp [hp]

end Workpiece

theorem length_bytes (d : Draft) : d.bytes.length = d.size := by
  rw [bytes, withLength, List.length_append, Message.Header.length_encode, size]

theorem take_bytes (d : Draft) : d.bytes.take Message.headerSize =
    Message.Header.encode ⟨UInt32.ofNat Message.headerSize, d.type, d.flags, d.seq, d.port⟩ :=
  List.take_left' (Message.Header.length_encode _)

theorem drop_bytes (d : Draft) : d.bytes.drop Message.headerSize = d.body :=
  List.drop_left' (Message.Header.length_encode _)

theorem take_withLength (d : Draft) (length : Nat) :
    (d.withLength length).take 4 = Bytes.little 4 (UInt32.ofNat length).toNat := by
  simp only [withLength, Message.Header.encode, List.append_assoc]
  exact List.take_left' (Bytes.length_little 4 _)

/-- The length of a message stands in its first four bytes only. -/
theorem drop_withLength (d : Draft) (length other : Nat) :
    (d.withLength length).drop 4 = (d.withLength other).drop 4 := by
  simp only [withLength, Message.Header.encode, List.append_assoc]
  rw [List.drop_left' (Bytes.length_little 4 _), List.drop_left' (Bytes.length_little 4 _)]

theorem bytes_extend (d : Draft) (bs : Bytes) : (d.extend bs).bytes = d.bytes ++ bs := by
  simp only [bytes, withLength, extend, List.append_assoc]

theorem bytes_patch (d : Draft) (nest : Nest) : (d.patch nest).bytes =
    d.bytes.take (Message.headerSize + nest.offset) ++
      Bytes.little 2 (d.bytes.length - (Message.headerSize + nest.offset)) ++
      d.bytes.drop (Message.headerSize + nest.offset + 2) := by
  have hsize : d.bytes.length - (Message.headerSize + nest.offset) =
      d.body.length - nest.offset := by
    rw [length_bytes, size]
    omega
  let head : Bytes :=
    Message.Header.encode ⟨UInt32.ofNat Message.headerSize, d.type, d.flags, d.seq, d.port⟩
  have hhead : head.length = Message.headerSize := Message.Header.length_encode _
  have htake : d.bytes.take (Message.headerSize + nest.offset) =
      head ++ d.body.take nest.offset := by
    rw [← hhead]
    exact List.take_length_add_append nest.offset
  rw [hsize, htake, Nat.add_assoc, ← List.drop_drop, drop_bytes, List.append_assoc,
    List.append_assoc, ← List.append_assoc (d.body.take _)]
  rfl

end Netfilter.Draft
