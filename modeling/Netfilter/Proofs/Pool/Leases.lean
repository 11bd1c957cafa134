import Mathlib.Data.List.Perm.Basic
import Mathlib.Data.List.Range
import Netfilter.Proofs.Pool.Basic

/-!
# Every slot is free or out once

The slots of a pool are divided between the free list and the leases that are
out. A slot that is free stores an empty buffer, and a slot that is out has the
generation of its lease, so no lease that is out can be refused.
-/

namespace Netfilter

def Lease.ticket (l : Lease) : Nat × UInt32 := (l.slot, l.generation)

namespace Pool

/-- The slots are divided between the free list and the tickets that are out. -/
structure Accounts (p : Pool) (tickets : List (Nat × UInt32)) : Prop where
  divided : (p.free ++ tickets.map Prod.fst).Perm (List.range p.capacity)
  stored : ∀ i ∈ p.free, ∃ generation, p.slots[i]? = some ⟨some [], generation⟩
  out : ∀ t ∈ tickets, p.slots[t.1]? = some ⟨none, t.2⟩

variable {p : Pool} {tickets : List (Nat × UInt32)}

theorem accounts_ofCount (count bufferSize : Nat) : (ofCount count bufferSize).Accounts [] where
  divided := by simp [ofCount, capacity]
  stored i hi := ⟨0, by
    have hlt : i < max count 1 := List.mem_range.1 hi
    simp [ofCount, hlt]⟩
  out := nofun

namespace Accounts

theorem perm {others : List (Nat × UInt32)} (h : p.Accounts tickets)
    (hperm : tickets.Perm others) : p.Accounts others where
  divided := ((hperm.map Prod.fst).symm.append_left p.free).trans h.divided
  stored := h.stored
  out t ht := h.out t (hperm.mem_iff.2 ht)

theorem nodup (h : p.Accounts tickets) : (p.free ++ tickets.map Prod.fst).Nodup :=
  h.divided.nodup_iff.2 List.nodup_range

theorem available_add_length (h : p.Accounts tickets) :
    p.available + tickets.length = p.capacity := by
  have hlength := h.divided.length_eq
  rwa [List.length_append, List.length_map, List.length_range] at hlength

theorem not_mem_free (h : p.Accounts tickets) {t : Nat × UInt32} (ht : t ∈ tickets) :
    t.1 ∉ p.free :=
  fun hfree => (List.nodup_append'.1 h.nodup).2.2 hfree (List.mem_map_of_mem ht)

/-- A slot that is not free is out, and then it stores nothing. -/
theorem holds_iff (h : p.Accounts tickets) (i : Nat) : p.Holds i ↔ i ∈ p.free := by
  constructor
  · rintro ⟨data, generation, hslot⟩
    have hlt : i < p.capacity := (List.getElem?_eq_some_iff.1 hslot).1
    have hmem : i ∈ p.free ++ tickets.map Prod.fst :=
      h.divided.mem_iff.2 (List.mem_range.2 hlt)
    rcases List.mem_append.1 hmem with hfree | hout
    · exact hfree
    · obtain ⟨t, ht, rfl⟩ := List.mem_map.1 hout
      rw [h.out t ht] at hslot
      cases hslot
  · intro hfree
    obtain ⟨generation, hslot⟩ := h.stored i hfree
    exact ⟨[], generation, hslot⟩

theorem consistent (h : p.Accounts tickets) : p.Consistent where
  nodup := (List.nodup_append'.1 h.nodup).1
  mem_free_iff i := (h.holds_iff i).symm

theorem stored_empty (h : p.Accounts tickets) {i : Nat} {data : Bytes} {generation : UInt32}
    (hslot : p.slots[i]? = some ⟨some data, generation⟩) : data = [] := by
  obtain ⟨_, hempty⟩ := h.stored i ((h.holds_iff i).1 ⟨data, generation, hslot⟩)
  rw [hslot] at hempty
  cases hempty
  rfl

/-- A lease is refused only when no slot is free. What is leased is empty, and its ticket is out. -/
theorem lease?_cases (h : p.Accounts tickets) :
    (p.available = 0 ∧ p.lease? = (none, p)) ∨
      ∃ l p', p.lease? = (some l, p') ∧ p.available = p'.available + 1 ∧ l.data = [] ∧
        p'.capacity = p.capacity ∧ p'.Accounts (l.ticket :: tickets) := by
  rcases h.consistent.lease?_cases with hnone | ⟨i, free, data, generation, hfree, hslot, hl⟩
  · exact .inl hnone
  refine .inr ⟨_, _, hl, by simp [available, hfree], h.stored_empty hslot,
    by simp [capacity], ?_, ?_, ?_⟩
  · have hdivided := h.divided
    rw [hfree] at hdivided
    simpa [capacity, Lease.ticket] using List.perm_middle.trans hdivided
  · intro j hj
    have hne : j ≠ i := by
      have hnodup := h.consistent.nodup
      rw [hfree, List.nodup_cons] at hnodup
      rintro rfl
      exact hnodup.1 hj
    rw [getElem?_set_slots hslot, if_neg hne]
    exact h.stored j (by rw [hfree]; exact List.mem_cons_of_mem i hj)
  · intro t ht
    rw [getElem?_set_slots hslot]
    rcases List.mem_cons.1 ht with rfl | hout
    · exact if_pos rfl
    · have hne : t.1 ≠ i := by
        rintro rfl
        exact h.not_mem_free hout (by rw [hfree]; exact List.mem_cons_self)
      rw [if_neg hne]
      exact h.out t hout

/-- A lease that is out is taken back, and its slot is free again. -/
theorem giveBack {l : Lease} (h : p.Accounts (l.ticket :: tickets)) :
    ∃ p', p.giveBack? l = some p' ∧ p'.available = p.available + 1 ∧ l.slot ∈ p'.free ∧
      p'.capacity = p.capacity ∧ p'.Accounts tickets := by
  have hslot : p.slots[l.slot]? = some ⟨none, l.generation⟩ := h.out l.ticket List.mem_cons_self
  have hnodup : (p.free ++ l.slot :: tickets.map Prod.fst).Nodup := h.nodup
  rw [List.nodup_middle, List.nodup_cons, List.mem_append, not_or] at hnodup
  refine ⟨{ p with
    slots := p.slots.set l.slot ⟨some [], l.generation + 1⟩
    free := l.slot :: p.free }, by simp [giveBack?, hslot], rfl, List.mem_cons_self,
    by simp [capacity], ?_, ?_, ?_⟩
  · have hdivided : (p.free ++ l.slot :: tickets.map Prod.fst).Perm (List.range p.capacity) :=
      h.divided
    simpa [capacity] using List.perm_middle.symm.trans hdivided
  · intro j hj
    rw [getElem?_set_slots hslot]
    by_cases hne : j = l.slot
    · exact ⟨_, if_pos hne⟩
    · rw [if_neg hne]
      exact h.stored j ((List.mem_cons.1 hj).resolve_left hne)
  · intro t ht
    have hne : t.1 ≠ l.slot := by
      intro heq
      exact hnodup.1.2 (heq ▸ List.mem_map_of_mem ht)
    rw [getElem?_set_slots hslot, if_neg hne]
    exact h.out t (List.mem_cons_of_mem _ ht)

/-- What is leased can be given back at once, with whatever data it holds. -/
theorem lease?_giveBack (h : p.Accounts []) (hcapacity : 0 < p.capacity) :
    ∃ l p', p.lease? = (some l, p') ∧ ∀ data, (p'.giveBack { l with data }).Accounts [] ∧
      (p'.giveBack { l with data }).capacity = p.capacity := by
  rcases h.lease?_cases with ⟨hnone, -⟩ | ⟨l, p', hlease, -, -, hcap, haccounts⟩
  · have hall := h.available_add_length
    rw [hnone] at hall
    exact absurd hall.symm (Nat.ne_of_gt hcapacity)
  · refine ⟨l, p', hlease, fun data => ?_⟩
    have hticket : p'.Accounts (Lease.ticket { l with data } :: []) := haccounts
    obtain ⟨p'', hback, -, -, hcap', haccounts'⟩ := hticket.giveBack
    rw [Pool.giveBack, hback]
    exact ⟨haccounts', hcap'.trans hcap⟩

end Accounts

def Lends (p : Pool) (l : Lease) : Prop := p.slots[l.slot]? = some ⟨none, l.generation⟩

variable {l : Lease}

/-- A lease stays out when another one is taken. -/
theorem Lends.lease? (h : p.Lends l) (hp : p.Consistent) : p.lease?.2.Lends l := by
  rcases hp.lease?_cases with ⟨-, hl⟩ | ⟨i, free, data, generation, -, hslot, hl⟩
  · rw [hl]
    exact h
  · have hne : l.slot ≠ i := by
      rintro rfl
      rw [h] at hslot
      cases hslot
    rw [hl, Lends, getElem?_set_slots hslot, if_neg hne]
    exact h

/-- A lease stays out as long as it is not given back itself. -/
theorem Lends.giveBack (h : p.Lends l) {other : Lease} (hother : other.ticket ≠ l.ticket) :
    (p.giveBack other).Lends l := by
  unfold Pool.giveBack
  cases hback : p.giveBack? other with
  | none => exact h
  | some p' =>
      obtain ⟨hslot, rfl⟩ := giveBack?_eq_some hback
      have hne : l.slot ≠ other.slot := by
        intro heq
        rw [← heq, h] at hslot
        have hgeneration : l.generation = other.generation := by simpa using hslot
        exact hother (Prod.ext heq.symm hgeneration.symm)
      rw [Option.getD_some, Lends, getElem?_set_slots hslot, if_neg hne]
      exact h

theorem Lends.taken (h : p.Lends l) (hp : p.Consistent) :
    l.slot ∉ p.free ∧ l.slot ∈ (p.giveBack l).free ∧
      (p.giveBack l).available = p.available + 1 := by
  have hback : p.giveBack l = { p with
      slots := p.slots.set l.slot ⟨some [], l.generation + 1⟩
      free := l.slot :: p.free } := by
    have hslot : p.slots[l.slot]? = some ⟨none, l.generation⟩ := h
    simp [Pool.giveBack, giveBack?, hslot]
  refine ⟨?_, ?_, ?_⟩
  · rw [hp.mem_free_iff]
    rintro ⟨data, generation, hslot⟩
    rw [h] at hslot
    cases hslot
  · rw [hback]
    exact List.mem_cons_self
  · rw [hback]
    rfl

end Pool

end Netfilter
