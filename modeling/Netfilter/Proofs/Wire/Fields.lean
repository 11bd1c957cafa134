import Mathlib.Data.List.Perm.Basic
import Netfilter.Proofs.Wire.Draft
import Netfilter.Proofs.Wire.Table

/-!
# Fields in any order

Each field of a record that has a value is written as one attribute. However
these attributes are ordered, and whatever attributes of other kinds stand among
them, the last value of the kind of a field is the value of that field.
-/

namespace Netfilter

namespace Draft

/-- Appends attributes, up to the first that does not fit. -/
def addAll (d : Draft) : List Attribute → Except Error Draft
  | [] => .ok d
  | a :: as =>
      match d.add a.rawType a.value with
      | .error e => .error e
      | .ok d => addAll d as

theorem addAll_eq_ok_iff {d built : Draft} (h : d.Aligned) {as : List Attribute} :
    d.addAll as = .ok built ↔
      (∀ a ∈ as, a.Fits) ∧ built = d.extend (as.flatMap Attribute.encode) := by
  induction as generalizing d with
  | nil => simp [addAll, eq_comm]
  | cons a as ih =>
      by_cases ha : a.Fits
      · have hlater := ih (h.extend a.encode_mod)
        rw [extend_extend] at hlater
        simp only [addAll, add_of_fits h a ha, hlater, List.forall_mem_cons, ha, true_and,
          List.flatMap_cons]
      · simp [addAll, add_of_not_fits d a ha, ha]

theorem exists_addAll_iff {d : Draft} (h : d.Aligned) {as : List Attribute} :
    (∃ built, d.addAll as = .ok built) ↔ ∀ a ∈ as, a.Fits := by
  simp [addAll_eq_ok_iff h]

theorem Aligned.addAll {d built : Draft} (h : d.Aligned) {as : List Attribute}
    (hb : d.addAll as = .ok built) : built.Aligned := by
  obtain ⟨-, rfl⟩ := (addAll_eq_ok_iff h).1 hb
  exact h.extend (Attribute.flatMap_encode_mod as)

end Draft

namespace Attribute

theorem kindOf_ofNat {n : Nat} (h : n < kindBound) : kindOf (UInt16.ofNat n) = n := by
  have hbits : n < 2 ^ 16 := Nat.lt_trans h (by decide)
  rw [kindOf, UInt16.toNat_ofNat', Nat.mod_eq_of_lt hbits, Nat.mod_eq_of_lt h]

section

variable {F : Type} (number : F → Nat) (value : F → Option Bytes)

def ofFields (fields : List F) : List Attribute :=
  fields.filterMap fun f => (value f).map (⟨UInt16.ofNat (number f), ·⟩)

variable {number value}

theorem mem_ofFields {fields : List F} {a : Attribute} :
    a ∈ ofFields number value fields ↔
      ∃ f ∈ fields, ∃ bytes, value f = some bytes ∧ a = ⟨UInt16.ofNat (number f), bytes⟩ := by
  simp only [ofFields, List.mem_filterMap, Option.map_eq_some_iff, eq_comm (a := a)]

/-- Different fields have different numbers, so only one attribute is of the kind of a field. -/
theorem filter_ofFields {fields : List F} (hnodup : (fields.map number).Nodup)
    (hbound : ∀ f ∈ fields, number f < kindBound) {f : F} (hf : f ∈ fields) :
    (ofFields number value fields).filter (·.kind = number f) =
      (value f).toList.map (⟨UInt16.ofNat (number f), ·⟩) := by
  have hnone {later : List F} (hb : ∀ g ∈ later, number g < kindBound) {n : Nat}
      (hn : n ∉ later.map number) : (ofFields number value later).filter (·.kind = n) = [] := by
    rw [List.filter_eq_nil_iff]
    intro a ha
    obtain ⟨g, hg, bytes, -, rfl⟩ := mem_ofFields.1 ha
    rw [decide_eq_true_iff, kind, kindOf_ofNat (hb g hg)]
    rintro rfl
    exact hn (List.mem_map_of_mem hg)
  induction fields with
  | nil => cases hf
  | cons g later ih =>
      rw [List.map_cons, List.nodup_cons] at hnodup
      obtain ⟨hg, hlater⟩ := List.forall_mem_cons.1 hbound
      have hcons : ofFields number value (g :: later) =
          (value g).toList.map (⟨UInt16.ofNat (number g), ·⟩) ++ ofFields number value later := by
        rw [ofFields, List.filterMap_cons]
        cases value g <;> rfl
      have hkind (bytes : Bytes) : kind ⟨UInt16.ofNat (number g), bytes⟩ = number g :=
        kindOf_ofNat hg
      rw [hcons, List.filter_append]
      rcases List.mem_cons.1 hf with rfl | hf
      · rw [hnone hlater hnodup.1, List.append_nil]
        cases value f with
        | none => rfl
        | some bytes => simp [hkind]
      · have hne : number g ≠ number f := fun h => hnodup.1 (h ▸ List.mem_map_of_mem hf)
        rw [ih hnodup.2 hlater hf]
        cases value g with
        | none => rfl
        | some bytes => simp [hkind, hne]

theorem lastValue?_of_perm {as others : List Attribute} {fields : List F}
    (hperm : as.Perm (ofFields number value fields ++ others))
    (hnodup : (fields.map number).Nodup) (hbound : ∀ f ∈ fields, number f < kindBound)
    (hothers : ∀ a ∈ others, ∀ f ∈ fields, a.kind ≠ number f) {f : F} (hf : f ∈ fields) :
    lastValue? as (number f) = value f := by
  have hnone : others.filter (·.kind = number f) = [] := by
    rw [List.filter_eq_nil_iff]
    intro a ha
    rw [decide_eq_true_iff]
    exact hothers a ha f hf
  have hone := hperm.filter (·.kind = number f)
  rw [List.filter_append, hnone, List.append_nil, filter_ofFields hnodup hbound hf] at hone
  unfold lastValue?
  cases hv : value f with
  | none =>
      rw [hv] at hone
      rw [List.perm_nil.1 hone]
      rfl
  | some bytes =>
      rw [hv] at hone
      rw [List.perm_singleton.1 hone]
      rfl

end

end Attribute

end Netfilter
