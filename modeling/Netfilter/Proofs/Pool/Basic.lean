import Mathlib.Data.List.Nodup
import Netfilter.Pool.Basic

/-!
# Free slots hold their buffers

The free list of a pool names each slot that holds its buffer exactly once. This
survives every lease and everything that is given back, be it a current lease or
not. So a lease is refused only when no slot is free.
-/

namespace Netfilter.Pool

def Holds (p : Pool) (i : Nat) : Prop :=
  ∃ data generation, p.slots[i]? = some ⟨some data, generation⟩

/-- The free list names exactly the slots that hold their buffers, each of them once. -/
structure Consistent (p : Pool) : Prop where
  nodup : p.free.Nodup
  mem_free_iff : ∀ i, i ∈ p.free ↔ p.Holds i

theorem consistent_ofCount (count bufferSize : Nat) : (ofCount count bufferSize).Consistent where
  nodup := List.nodup_range
  mem_free_iff i := by
    by_cases hi : i < max count 1
    · simp [ofCount, Holds, hi]
    · simp [ofCount, Holds, hi]

theorem Consistent.lease?_cases {p : Pool} (h : p.Consistent) :
    (p.available = 0 ∧ p.lease? = (none, p)) ∨
      ∃ i free data generation, p.free = i :: free ∧
        p.slots[i]? = some ⟨some data, generation⟩ ∧
        p.lease? = (some ⟨i, generation, data⟩,
          { p with slots := p.slots.set i ⟨none, generation⟩, free }) := by
  cases hf : p.free with
  | nil => exact .inl ⟨by simp [available, hf], by simp [lease?, hf]⟩
  | cons i free =>
      obtain ⟨data, generation, hslot⟩ := (h.mem_free_iff i).1 (by simp [hf])
      exact .inr ⟨i, free, data, generation, rfl, hslot, by simp [lease?, hf, hslot]⟩

theorem getElem?_set_slots {p : Pool} {i : Nat} {slot : Slot} (hslot : p.slots[i]? = some slot)
    (new : Slot) (j : Nat) :
    (p.slots.set i new)[j]? = if j = i then some new else p.slots[j]? := by
  have hi : i < p.slots.length := (List.getElem?_eq_some_iff.1 hslot).1
  rw [List.getElem?_set]
  by_cases hj : j = i
  · subst hj
    simp [hi]
  · simp [hj, Ne.symm hj]

theorem Consistent.lease? {p : Pool} (h : p.Consistent) : p.lease?.2.Consistent := by
  rcases h.lease?_cases with ⟨-, hl⟩ | ⟨i, free, data, generation, hf, hslot, hl⟩
  · rw [hl]
    exact h
  · have hnodup : (i :: free).Nodup := hf ▸ h.nodup
    rw [hl]
    refine ⟨(List.nodup_cons.1 hnodup).2, fun j => ?_⟩
    have hmem := h.mem_free_iff j
    rw [hf, List.mem_cons] at hmem
    unfold Holds at *
    simp only [getElem?_set_slots hslot]
    by_cases hj : j = i
    · subst hj
      simp [(List.nodup_cons.1 hnodup).1]
    · simpa [hj] using hmem

theorem giveBack?_eq_some {p p' : Pool} {l : Lease} (h : p.giveBack? l = some p') :
    p.slots[l.slot]? = some ⟨none, l.generation⟩ ∧ p' = { p with
      slots := p.slots.set l.slot ⟨some [], l.generation + 1⟩, free := l.slot :: p.free } := by
  unfold giveBack? at h
  split at h
  · split_ifs at h with hg
    subst hg
    exact ⟨‹_›, (Option.some.inj h).symm⟩
  · cases h

theorem Consistent.giveBack {p : Pool} (h : p.Consistent) (l : Lease) :
    (p.giveBack l).Consistent := by
  unfold Pool.giveBack
  cases hg : p.giveBack? l with
  | none => exact h
  | some p' =>
      obtain ⟨hslot, rfl⟩ := giveBack?_eq_some hg
      have hout : ¬ l.slot ∈ p.free := by
        rw [h.mem_free_iff]
        rintro ⟨data, generation, hs⟩
        rw [hslot] at hs
        cases hs
      refine ⟨List.nodup_cons.2 ⟨hout, h.nodup⟩, fun j => ?_⟩
      have hmem := h.mem_free_iff j
      unfold Holds at *
      simp only [Option.getD_some, getElem?_set_slots hslot, List.mem_cons]
      by_cases hj : j = l.slot
      · simp [hj]
      · simpa [hj] using hmem

end Netfilter.Pool
