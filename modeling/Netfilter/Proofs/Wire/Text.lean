import Netfilter.Proofs.Wire.AttributeList
import Netfilter.Proofs.Wire.Making
import Netfilter.Proofs.Wire.Value

/-!
# Texts appended to a message

A text is appended as an attribute that holds its bytes and a zero byte, so it is refused if that
is too long for the header, one byte earlier than bytes alone. What is appended is read after all
attributes that are read before it, with the length of the text and of the zero byte, and the text
is read back out of it up to its first character zero.
-/

namespace Netfilter

namespace Attribute

/-- The attribute was put behind the bytes `before`: its header stands there, nothing else is read
from there on, and it is read after each list of attributes that is read up to there. -/
structure IsAppended (a : Attribute) (before after : Bytes) : Prop where
  kept : before <+: after
  header : ∃ header, Header.decode (after.drop before.length) = .ok header ∧
    header.length.toNat = a.size ∧ header.rawType = a.rawType
  alone : walk (after.drop before.length) = ⟨[a], none⟩
  last : ∀ offset as, offset % 4 = 0 → offset ≤ before.length →
    walk (before.drop offset) = ⟨as, none⟩ → walk (after.drop offset) = ⟨as ++ [a], none⟩

theorem walk_encode {a : Attribute} (hfits : a.Fits) : walk a.encode = ⟨[a], none⟩ := by
  have h := walk_flatMap_encode [a] (by simpa using hfits)
  rwa [List.flatMap_singleton] at h

theorem isAppended_encode {a : Attribute} (hfits : a.Fits) {before : Bytes}
    (hwords : before.length % 4 = 0) : a.IsAppended before (before ++ a.encode) where
  kept := List.prefix_append _ _
  header := by
    refine ⟨⟨UInt16.ofNat a.size, a.rawType⟩, ?_, UInt16.toNat_ofNat_of_lt' hfits.size_lt, rfl⟩
    rw [List.drop_left, encode_eq_append a hfits]
    exact Header.decode_encode_append _ _
  alone := by rw [List.drop_left, walk_encode hfits]
  last := by
    intro offset as hoffset hinside hread
    have hleft : (before.drop offset).length % 4 = 0 := by
      rw [List.length_drop]
      omega
    rw [List.drop_append_of_le_length hinside, walk_append hleft _ (by rw [hread]), hread,
      walk_encode hfits]

end Attribute

namespace Draft

def textAttribute (rawType : UInt16) (s : String) : Attribute := ⟨rawType, Utf8.encode s ++ [0]⟩

theorem length_textAttribute (rawType : UInt16) (s : String) :
    (textAttribute rawType s).value.length = Utf8.size s + 1 := by
  rw [textAttribute, List.length_append, List.length_singleton, Utf8.size]

theorem fits_textAttribute_iff {rawType : UInt16} {s : String} :
    (textAttribute rawType s).Fits ↔ Utf8.size s ≤ 65530 := by
  rw [Attribute.Fits, length_textAttribute, Attribute.maxValue, Attribute.headerSize]
  omega

theorem text_of_fits {d : Draft} (h : d.Aligned) {rawType : UInt16} {s : String}
    (hfits : Utf8.size s ≤ 65530) :
    d.text rawType s = .ok (d.extend (textAttribute rawType s).encode) :=
  add_of_fits h (textAttribute rawType s) (fits_textAttribute_iff.2 hfits)

theorem text_of_not_fits (d : Draft) {rawType : UInt16} {s : String}
    (hfits : 65530 < Utf8.size s) :
    d.text rawType s = .error (.invalidAttribute
      (.oversized (Attribute.kindOf rawType) (Utf8.size s + 1))) := by
  have hlong : ¬ (textAttribute rawType s).Fits := by
    rw [fits_textAttribute_iff]
    omega
  have herror := add_of_not_fits d (textAttribute rawType s) hlong
  rwa [length_textAttribute] at herror

structure KeepsText (w : Workpiece) (rawType : UInt16) (s : String) : Prop where
  fails_iff : (∃ e, (w.edit (.text rawType s)).1 = .error e) ↔ 65530 < Utf8.size s
  failed : 65530 < Utf8.size s → w.edit (.text rawType s) = (.error (.invalidAttribute
    (.oversized (Attribute.kindOf rawType) (Utf8.size s + 1))), w)
  appended : Utf8.size s ≤ 65530 → ∃ (a : Attribute) (t : String),
    a.IsAppended w.draft.body (w.edit (.text rawType s)).2.draft.body ∧
      a.rawType = rawType ∧ a.size = Utf8.size s + 5 ∧ Value.text a.value = .ok t ∧
      Utf8.IsPlainFront t s ∧ ('\x00' ∉ s.toList → t = s)

theorem keepsText_of_fits {w : Workpiece} (h : w.draft.Aligned) (rawType : UInt16) {s : String}
    (hfits : Utf8.size s ≤ 65530) : KeepsText w rawType s := by
  have hnot : ¬ 65530 < Utf8.size s := Nat.not_lt_of_le hfits
  have hedit : w.edit (.text rawType s) =
      w.keep (w.draft.extend (textAttribute rawType s).encode) := by
    change w.attempt (w.draft.text rawType s) = _
    rw [text_of_fits h hfits]
    rfl
  refine ⟨⟨?_, fun hlong => absurd hlong hnot⟩, fun hlong => absurd hlong hnot, fun _ => ?_⟩
  · rintro ⟨e, he⟩
    rw [hedit] at he
    cases he
  · refine ⟨textAttribute rawType s, Utf8.untilZero s, ?_, rfl, ?_, ?_, ?_, ?_⟩
    · rw [hedit]
      exact Attribute.isAppended_encode (fits_textAttribute_iff.2 hfits) h
    · rw [Attribute.size, length_textAttribute, Attribute.headerSize]
      omega
    · exact Value.text_encode_append_zero s []
    · exact Utf8.isPlainFront_untilZero s
    · exact Utf8.untilZero_of_plain

theorem keepsText_of_not_fits (w : Workpiece) (rawType : UInt16) {s : String}
    (hlong : 65530 < Utf8.size s) : KeepsText w rawType s := by
  have hedit : w.edit (.text rawType s) = (.error (.invalidAttribute
      (.oversized (Attribute.kindOf rawType) (Utf8.size s + 1))), w) := by
    change w.attempt (w.draft.text rawType s) = _
    rw [text_of_not_fits w.draft hlong]
    rfl
  refine ⟨⟨fun _ => hlong, fun _ => ?_⟩, fun _ => hedit, fun hfits => ?_⟩
  · rw [hedit]
    exact ⟨_, rfl⟩
  · exact absurd hfits (Nat.not_le_of_lt hlong)

/-- Whatever was done to a message before, a text is refused exactly if it is too long for the
header, and else read back up to its first character zero. -/
theorem text_readBack (start : Start) (edits : List Edit) (rawType : UInt16) (s : String) :
    KeepsText (start.make edits) rawType s := by
  by_cases hfits : Utf8.size s ≤ 65530
  · exact keepsText_of_fits (Workpiece.sound_make start edits).aligned rawType hfits
  · exact keepsText_of_not_fits _ rawType (Nat.lt_of_not_le hfits)

def openedMessage : Workpiece :=
  Start.make (.netfilter 4 1 0 2 7) [.openNest 1, .word8 3 9]

def sampleText : String := "grüß\x00aus"

def longText : String := String.ofList (List.replicate 65531 'a')

theorem text_readBack_sampleText : Utf8.size sampleText ≤ 65530 ∧ 65530 < Utf8.size longText ∧
    (∃ a : Attribute, a.rawType = 10 ∧ a.size = 15 ∧ Value.text a.value = .ok "grüß" ∧
      Attribute.walk ((openedMessage.edit (.text 10 sampleText)).2.draft.body.drop 8) =
        ⟨[⟨3, [9]⟩, a], none⟩) ∧
    openedMessage.edit (.text 10 longText) =
      (.error (.invalidAttribute (.oversized 10 65532)), openedMessage) := by
  have hsize : Utf8.size sampleText = 10 := by decide
  have hfits : Utf8.size sampleText ≤ 65530 := hsize ▸ by decide
  have hone : 'a'.utf8Size = 1 := by decide
  have hsizes (n : Nat) : Utf8.size (String.ofList (List.replicate n 'a')) = n := by
    simp [Utf8.size, Utf8.encode, hone]
  have hlong : Utf8.size longText = 65531 := hsizes 65531
  have hkeeps := text_readBack (.netfilter 4 1 0 2 7) [.openNest 1, .word8 3 9] 10
  obtain ⟨a, t, happended, htype, hlength, htext, hfront, -⟩ := (hkeeps sampleText).appended hfits
  have ht : t = "grüß" := hfront.unique (Utf8.isPlainFront_untilZero sampleText)
  have hbefore : Attribute.walk (openedMessage.draft.body.drop 8) = ⟨[⟨3, [9]⟩], none⟩ :=
    Attribute.walk_encode (by decide : Attribute.Fits ⟨3, [9]⟩)
  refine ⟨hfits, hlong ▸ by decide, ⟨a, htype, hlength.trans (by rw [hsize]), ht ▸ htext, ?_⟩, ?_⟩
  · exact happended.last 8 _ rfl (by decide) hbefore
  · exact ((hkeeps longText).failed (hlong ▸ by decide)).trans (by rw [hlong]; rfl)

end Draft

end Netfilter
