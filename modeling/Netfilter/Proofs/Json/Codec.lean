import Netfilter.Json.Record
import Netfilter.Proofs.Json.Skip

/-!
# Codecs that read what they write

Each codec reads back what it writes, in front of anything that may stand behind
a value. The codecs of lists and of values that may be absent take this over
from the codec of what they hold, as long as that one starts with a digit.
-/

namespace Netfilter

namespace Json

theorem Reader.readAll_of {α : Type} {r : Reader α} {text : List Char} {a : α}
    (h : r text = .ok (a, [])) : r.readAll (String.ofList text) = .ok a := by
  rw [readAll, String.toList_ofList, h]
  rfl

theorem separated_cons (part : List Char) (parts : List (List Char)) :
    separated (part :: parts) = part ++ parts.flatMap (',' :: ·) := by
  unfold separated
  induction parts generalizing part with
  | nil => simp [List.intercalate]
  | cons next parts ih =>
      rw [List.intercalate_cons_cons, ih, List.flatMap_cons, List.append_assoc,
        List.singleton_append, List.cons_append]

namespace Codec

variable {α β : Type}

/-- A text is read as a value, in front of anything that may stand behind a value. -/
def Reads (c : Codec α) (text : List Char) (a : α) : Prop :=
  ∀ rest, Delimited rest → c.read (text ++ rest) = .ok (a, rest)

def Faithful (c : Codec α) : Prop := ∀ a, c.Reads (c.write a) a

def Numeric (c : Codec α) : Prop := ∀ a, ∃ d ds, c.write a = d :: ds ∧ isDigit d = true

theorem Reads.readAll {c : Codec α} {text : List Char} {a : α} (h : c.Reads text a) :
    c.read.readAll (String.ofList text) = .ok a := by
  have hread := h [] delimited_nil
  rw [List.append_nil] at hread
  exact Reader.readAll_of hread

theorem Reads.map {c : Codec α} {text : List Char} {a : α} (h : c.Reads text a) (of : α → β)
    (back : β → α) : (c.map of back).Reads text (of a) := by
  intro rest hrest
  simp only [Codec.map, h rest hrest, Except.map]

theorem natural_reads {bound n : Nat} (hbound : bound ≤ Number.significandBound) (hn : n < bound) :
    (natural bound).Reads (Number.write n) n := by
  intro rest hrest
  have hread := Number.read_write (hn.trans_le hbound) hrest.stops
  obtain ⟨d, ds, hw, hd⟩ := Number.exists_write n
  rw [hw, List.cons_append] at hread ⊢
  have hnumber : (decide (d = '-') || isDigit d) = true := by simp [hd]
  simp only [natural, skipBlanks_cons _ (isBlank_number (.inr hd)), hnumber, if_true, hread, hn]

theorem natural_map_faithful {bound : Nat} {of : Nat → β} {back : β → Nat}
    (hbound : bound ≤ Number.significandBound) (hback : ∀ b, back b < bound)
    (hof : ∀ b, of (back b) = b) : ((natural bound).map of back).Faithful := by
  intro b
  have hreads := (natural_reads hbound (hback b)).map of back
  rwa [hof b] at hreads

theorem natural_map_numeric {bound : Nat} {of : Nat → β} {back : β → Nat} :
    ((natural bound).map of back).Numeric :=
  fun b => Number.exists_write (back b)

theorem word16_faithful : word16.Faithful :=
  natural_map_faithful (by decide) UInt16.toNat_lt_size fun _ => UInt16.ofNat_toNat

theorem word32_faithful : word32.Faithful :=
  natural_map_faithful (by decide) UInt32.toNat_lt_size fun _ => UInt32.ofNat_toNat

theorem word64_faithful : word64.Faithful :=
  natural_map_faithful le_rfl UInt64.toNat_lt_size fun _ => UInt64.ofNat_toNat

theorem boolean_faithful : boolean.Faithful := by
  intro b rest _
  cases b with
  | false =>
      change (exactly ['a', 'l', 's', 'e'] (['a', 'l', 's', 'e'] ++ rest)).map (false, ·) = _
      rw [exactly_append, Except.map]
  | true =>
      change (exactly ['r', 'u', 'e'] (['r', 'u', 'e'] ++ rest)).map (true, ·) = _
      rw [exactly_append, Except.map]

/-- No word starts with a digit, so what is absent is told from what is not. -/
theorem optional_faithful {c : Codec α} (h : c.Faithful) (hnumeric : c.Numeric) :
    (optional c).Faithful := by
  intro a rest hrest
  cases a with
  | none =>
      change (exactly ['u', 'l', 'l'] (['u', 'l', 'l'] ++ rest)).map (none, ·) = _
      rw [exactly_append, Except.map]
  | some a =>
      have hread := h a rest hrest
      obtain ⟨d, ds, hw, hd⟩ := hnumeric a
      simp only [optional]
      rw [hw, List.cons_append] at hread ⊢
      rw [skipBlanks_cons _ (isBlank_number (.inr hd))]
      split
      · next heq => exact absurd (List.cons.inj heq).1 (ne_of_number (.inr hd) (by decide))
      · rw [hread, Except.map]

theorem named?_of_mem {name : α → String} {all : List α} {a : α} (ha : a ∈ all)
    (hdistinct : ∀ b ∈ all, name b = name a → b = a) :
    named? name all (name a).toList = .ok a := by
  unfold named?
  cases hfind : all.find? fun b => (name b).toList = (name a).toList with
  | none => exact absurd (List.find?_eq_none.1 hfind a ha) (by simp)
  | some b =>
      have hname : name b = name a := String.toList_inj.1 (by simpa using List.find?_some hfind)
      rw [hdistinct b (List.mem_of_find?_eq_some hfind) hname]

theorem enumeration_reads {name : α → String} {all : List α} {a : α} (ha : a ∈ all)
    (hdistinct : ∀ b ∈ all, name b = name a → b = a) :
    (enumeration name all).Reads (Quoted.write (name a).toList) a := by
  intro rest _
  obtain ⟨cs, hwrite, hread⟩ := Quoted.read_write (name a).toList rest
  simp only [enumeration, hwrite, skipBlanks_cons _ (show isBlank '"' = false by decide), hread,
    named?_of_mem ha hdistinct, Except.map]

/-- What stands behind an element that was read: more elements, each behind a comma, and the end. -/
def behind (parts : List (List Char)) (rest : List Char) : List Char :=
  parts.flatMap (',' :: ·) ++ rest

theorem behind_cons (part : List Char) (parts : List (List Char)) (rest : List Char) :
    behind (part :: parts) rest = ',' :: (part ++ behind parts rest) := by
  rw [behind, List.flatMap_cons, List.append_assoc, List.cons_append, behind]

theorem separated_append (part : List Char) (parts : List (List Char)) (rest : List Char) :
    separated (part :: parts) ++ rest = part ++ behind parts rest := by
  rw [separated_cons, List.append_assoc, behind]

theorem delimited_behind (parts : List (List Char)) {rest : List Char} (h : Delimited rest) :
    Delimited (behind parts rest) := by
  cases parts with
  | nil => exact h
  | cons part parts => exact delimited_cons _ (by simp)

theorem delimited_bracket (rest : List Char) : Delimited (']' :: rest) :=
  delimited_cons rest (by simp)

theorem another_end (rest : List Char) (isFirst : Bool) :
    another isFirst (']' :: rest) = .ok (false, ']' :: rest) := by
  unfold another
  rw [skipBlanks_cons _ (by decide)]
  rfl

theorem another_first {d : Char} (ds : List Char) (hd : isDigit d = true) :
    another true (d :: ds) = .ok (true, d :: ds) := by
  unfold another
  rw [skipBlanks_cons _ (isBlank_number (.inr hd))]
  split
  · next heq => cases heq
  · next heq => exact absurd (List.cons.inj heq).1 (ne_of_number (.inr hd) (by decide))
  · next heq => exact absurd (List.cons.inj heq).1 (ne_of_number (.inr hd) (by decide))
  · rfl

theorem another_comma {d : Char} (ds : List Char) (hd : isDigit d = true) :
    another false (',' :: d :: ds) = .ok (true, d :: ds) := by
  unfold another
  rw [skipBlanks_cons _ (by decide)]
  simp only [if_neg Bool.false_ne_true, skipBlanks_cons _ (isBlank_number (.inr hd))]
  split
  · next heq => cases heq
  · next heq => exact absurd (List.cons.inj heq).1 (ne_of_number (.inr hd) (by decide))
  · rfl

variable {c : Codec α}

theorem elementsFor_end (fuel : Nat) (done : List α) (rest : List Char) :
    elementsFor c (fuel + 1) done (']' :: rest) = .ok (done.reverse, ']' :: rest) := by
  rw [elementsFor, another_end]

/-- An element that is there, behind a comma or not, is read and counted. -/
theorem elementsFor_element {cs text rest : List Char} {a : α} {done : List α} (fuel : Nat)
    (hthere : another done.isEmpty cs = .ok (true, text ++ rest))
    (hread : c.read (text ++ rest) = .ok (a, rest)) :
    elementsFor c (fuel + 1) done cs = elementsFor c fuel (a :: done) rest := by
  simp only [elementsFor, hthere, hread]

/-- With an element read, one call for each further element and one for the end are enough. -/
theorem elementsFor_behind (h : c.Faithful) (hnumeric : c.Numeric) (as : List α) {fuel : Nat}
    (hfuel : as.length < fuel) {done : List α} (hdone : done ≠ []) (rest : List Char) :
    elementsFor c fuel done (behind (as.map c.write) (']' :: rest)) =
      .ok (done.reverse ++ as, ']' :: rest) := by
  induction as generalizing fuel done with
  | nil =>
      obtain ⟨fuel, rfl⟩ := Nat.exists_eq_add_one.2 (Nat.zero_lt_of_lt hfuel)
      rw [List.append_nil]
      exact elementsFor_end fuel done rest
  | cons a as ih =>
      obtain ⟨fuel, rfl⟩ := Nat.exists_eq_add_one.2 (Nat.zero_lt_of_lt hfuel)
      have hread := h a _ (delimited_behind (as.map c.write) (delimited_bracket rest))
      have hthere : another done.isEmpty (behind ((a :: as).map c.write) (']' :: rest)) =
          .ok (true, c.write a ++ behind (as.map c.write) (']' :: rest)) := by
        obtain ⟨d, ds, hw, hd⟩ := hnumeric a
        rw [List.isEmpty_eq_false_iff.2 hdone, List.map_cons, behind_cons, hw]
        exact another_comma _ hd
      rw [elementsFor_element fuel hthere hread,
        ih (Nat.lt_of_succ_lt_succ hfuel) (List.cons_ne_nil a done), List.reverse_cons,
        List.append_assoc, List.singleton_append]

theorem length_le_behind (parts : List (List Char)) (rest : List Char) :
    parts.length + rest.length ≤ (behind parts rest).length := by
  induction parts with
  | nil => simp [behind]
  | cons part parts ih =>
      rw [behind_cons, List.length_cons, List.length_cons, List.length_append]
      omega

theorem elementsFor_separated (h : c.Faithful) (hnumeric : c.Numeric) (as : List α)
    {fuel : Nat} (hfuel : as.length < fuel) (rest : List Char) :
    elementsFor c fuel [] (separated (as.map c.write) ++ ']' :: rest) = .ok (as, ']' :: rest) := by
  obtain ⟨fuel, rfl⟩ := Nat.exists_eq_add_one.2 (Nat.zero_lt_of_lt hfuel)
  cases as with
  | nil => exact elementsFor_end fuel [] rest
  | cons a as =>
      have hread := h a _ (delimited_behind (as.map c.write) (delimited_bracket rest))
      have hthere : another ([] : List α).isEmpty (c.write a ++ behind (as.map c.write) (']' :: rest)) =
          .ok (true, c.write a ++ behind (as.map c.write) (']' :: rest)) := by
        obtain ⟨d, ds, hw, hd⟩ := hnumeric a
        rw [hw]
        exact another_first _ hd
      rw [List.map_cons, separated_append, elementsFor_element fuel hthere hread]
      exact elementsFor_behind h hnumeric as (Nat.lt_of_succ_lt_succ hfuel)
        (List.cons_ne_nil a []) rest

/-- A list has fewer elements than its text has characters, so the reader's count never runs out. -/
theorem list_faithful (h : c.Faithful) (hnumeric : c.Numeric) : (list c).Faithful := by
  intro as rest _
  have hlength : as.length < (separated (as.map c.write) ++ ']' :: rest).length + 1 := by
    cases as with
    | nil => simp
    | cons a as =>
        have := length_le_behind (as.map c.write) (']' :: rest)
        rw [List.map_cons, separated_append, List.length_append]
        simp only [List.length_map, List.length_cons] at this ⊢
        omega
  have helements := elementsFor_separated h hnumeric as hlength rest
  have hend : listEnd (']' :: rest) = .ok rest :=
    punctuation_append (fun _ hb => absurd hb List.not_mem_nil) (by decide)
  simp only [list, array, List.cons_append, List.append_assoc, List.nil_append,
    skipBlanks_cons _ (show isBlank '[' = false by decide), helements, hend, Except.map]

end Codec

end Json

end Netfilter
