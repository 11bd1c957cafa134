import Mathlib.Data.List.Infix
import Netfilter.Wire.Table

/-!
# What a table holds after a decode

After a decode without a defect a slot holds the value of the last attribute of
its kind, whatever the table held before; after a decode with a defect every
slot is empty. A table can therefore be used again and again.
-/

namespace Netfilter

def Attribute.lastValue? (as : List Attribute) (kind : Nat) : Option Bytes :=
  (as.filter (·.kind = kind)).getLast?.map (·.value)

theorem Attribute.lastValue?_append_singleton (as : List Attribute) (a : Attribute) (kind : Nat) :
    lastValue? (as ++ [a]) kind = if a.kind = kind then some a.value else lastValue? as kind := by
  by_cases hk : a.kind = kind
  · simp [lastValue?, hk]
  · simp [lastValue?, hk]

theorem Attribute.exists_of_lastValue? {as : List Attribute} {kind : Nat} {value : Bytes}
    (h : lastValue? as kind = some value) : ∃ a ∈ as, a.value = value := by
  obtain ⟨a, ha, rfl⟩ := Option.map_eq_some_iff.1 h
  exact ⟨a, (List.mem_filter.1 (List.mem_of_getLast? ha)).1, rfl⟩

namespace Table

variable {size : Nat}

theorem get?_clear (t : Table size) (kind : Nat) : t.clear.get? kind = none := by
  unfold get? clear
  by_cases h : kind < size <;> simp [h]

theorem get?_store (t : Table size) (a : Attribute) {kind : Nat} (h : kind < size) :
    (t.store a).get? kind = if a.kind = kind then some a.value else t.get? kind := by
  unfold get? store
  by_cases hk : a.kind = kind
  · subst hk
    simp [h]
  · simp [h, hk]

theorem get?_foldl_store (as : List Attribute) (t : Table size) {kind : Nat} (h : kind < size) :
    (as.foldl store t).get? kind = (Attribute.lastValue? as kind).or (t.get? kind) := by
  induction as using List.reverseRecOn with
  | nil => rfl
  | append_singleton as a ih =>
      rw [List.foldl_append, List.foldl_cons, List.foldl_nil, get?_store _ a h, ih,
        Attribute.lastValue?_append_singleton]
      by_cases hk : a.kind = kind
      · rw [if_pos hk, if_pos hk, Option.some_or]
      · rw [if_neg hk, if_neg hk]

theorem decode_of_fault_none {data : Bytes} (t : Table size)
    (h : (Attribute.walk data).fault = none) :
    t.decode data = (.ok (), (Attribute.walk data).items.foldl store t.clear) := by
  simp only [decode, h]

theorem decode_of_fault_some {data : Bytes} {e : Error} (t : Table size)
    (h : (Attribute.walk data).fault = some e) : t.decode data = (.error e, t.clear) := by
  simp only [decode, h]

/-- Nothing is left in a table of what it held before a decode. -/
theorem get?_decode {data : Bytes} (t : Table size) (h : (Attribute.walk data).fault = none)
    {kind : Nat} (hk : kind < size) :
    (t.decode data).2.get? kind = Attribute.lastValue? (Attribute.walk data).items kind := by
  rw [t.decode_of_fault_none h, get?_foldl_store _ _ hk, get?_clear, Option.or_none]

end Table

end Netfilter
