import Netfilter.Proofs.Checked.Wire
import Netfilter.Proofs.Wire.AttributeList

/-!
# A table used again and again

A table is decoded into and cleared any number of times. The next decode fails
just when the reader of attributes meets a defect, and leaves nothing then. Else
each slot holds the value of the last attribute of its kind. Nothing of what was
done before is to be seen.
-/

namespace Netfilter

open Reading (answer)

theorem getElem?_append_singleton_eq_some_iff {α : Type} {as : List α} {a b : α}
    {n : Nat} : (as ++ [a])[n]? = some b ↔ as[n]? = some b ∨ n = as.length ∧ a = b := by
  rcases Nat.lt_trichotomy n as.length with hn | rfl | hn
  · rw [List.getElem?_append_left hn]
    simp [Nat.ne_of_lt hn]
  · simp
  · rw [List.getElem?_eq_none (by rw [List.length_append]; exact hn),
      List.getElem?_eq_none (Nat.le_of_lt hn)]
    simp [Nat.ne_of_gt hn]

namespace Walk

variable {α : Type} {w : Walk α}

theorem error_mem_met_iff {e : Error} : .error e ∈ w.met ↔ w.fault = some e := by
  simp [met, eq_comm]

theorem getElem?_met_eq_ok_iff {n : Nat} {a : α} :
    w.met[n]? = some (.ok a) ↔ w.items[n]? = some a := by
  refine Reading.getElem?_eq_ok_iff fun a h => ?_
  obtain ⟨e, -, he⟩ := Option.map_eq_some_iff.1 h
  cases he

end Walk

namespace Attribute

/-- Call after call, a reader meets what is on the walk. -/
theorem answer_eq_met (data : Bytes) (n : Nat) : answer next data n = (walk data).met[n]? := by
  induction hlength : data.length using Nat.strong_induction_on generalizing data n with
  | _ k ih =>
      subst hlength
      cases hnext : next data with
      | none =>
          rw [Reading.answer_of_next_none hnext, walk_of_next_none hnext]
          rfl
      | some taken =>
          obtain ⟨e | a, rest⟩ := taken
          · rw [walk_of_next_error hnext]
            cases n with
            | zero => simp [answer, Reading.left, hnext, Walk.met]
            | succ n =>
                rw [Reading.answer_succ_of_next hnext, (rest_of_next_error hnext).2,
                  Reading.answer_of_next_none (next_eq_none_iff.2 rfl)]
                rfl
          · rw [walk_of_next_ok hnext]
            cases n with
            | zero => simp [answer, Reading.left, hnext, Walk.met]
            | succ n =>
                rw [Reading.answer_succ_of_next hnext, ih _ (next_shortens hnext) rest n rfl]
                rfl

def maskedType (a : Attribute) : Nat := a.rawType.toNat &&& 0x3fff

theorem maskedType_eq_kind (a : Attribute) : a.maskedType = a.kind :=
  Nat.and_two_pow_sub_one_eq_mod a.rawType.toNat 14

theorem kind_lt (a : Attribute) : a.kind < kindBound := Nat.mod_lt _ (by decide)

structure LastGiven (data : Bytes) (kind n : Nat) (a : Attribute) : Prop where
  given : answer next data n = some (.ok a)
  kind_eq : a.maskedType = kind
  last : ∀ m b, n < m → answer next data m = some (.ok b) → b.maskedType ≠ kind

theorem lastValue?_eq_some_iff {as : List Attribute} {kind : Nat} {value : Bytes} :
    lastValue? as kind = some value ↔ ∃ (n : Nat) (a : Attribute), as[n]? = some a ∧
      a.kind = kind ∧ (∀ m b, n < m → as[m]? = some b → b.kind ≠ kind) ∧ a.value = value := by
  -- from the end, where the last attribute of the kind is found first
  induction as using List.reverseRecOn with
  | nil => simp [lastValue?]
  | append_singleton as a ih =>
      simp only [lastValue?_append_singleton, getElem?_append_singleton_eq_some_iff]
      by_cases hk : a.kind = kind
      · rw [if_pos hk, Option.some.injEq]
        constructor
        · rintro rfl
          refine ⟨as.length, a, .inr ⟨rfl, rfl⟩, hk, fun m b hm hb => ?_, rfl⟩
          rcases hb with hb | ⟨rfl, -⟩
          · rw [List.getElem?_eq_none (Nat.le_of_lt hm)] at hb
            cases hb
          · exact absurd hm (Nat.lt_irrefl _)
        · rintro ⟨n, b, hb | ⟨rfl, rfl⟩, -, hlast, rfl⟩
          · obtain ⟨hn, -⟩ := List.getElem?_eq_some_iff.1 hb
            exact absurd hk (hlast as.length a hn (.inr ⟨rfl, rfl⟩))
          · rfl
      · rw [if_neg hk, ih]
        constructor
        · rintro ⟨n, b, hb, hkind, hlast, hvalue⟩
          refine ⟨n, b, .inl hb, hkind, fun m c hm hc => ?_, hvalue⟩
          rcases hc with hc | ⟨-, rfl⟩
          · exact hlast m c hm hc
          · exact hk
        · rintro ⟨n, b, hb | ⟨-, rfl⟩, hkind, hlast, hvalue⟩
          · exact ⟨n, b, hb, hkind, fun m c hm hc => hlast m c hm (.inl hc), hvalue⟩
          · exact absurd hkind hk

theorem lastValue?_walk_eq_some_iff {data : Bytes} {kind : Nat} {value : Bytes} :
    lastValue? (walk data).items kind = some value ↔
      ∃ n a, LastGiven data kind n a ∧ a.value = value := by
  have hgiven (n : Nat) (a : Attribute) :
      (walk data).items[n]? = some a ↔ answer next data n = some (.ok a) := by
    rw [answer_eq_met, Walk.getElem?_met_eq_ok_iff]
  rw [lastValue?_eq_some_iff]
  simp only [hgiven, ← maskedType_eq_kind]
  constructor
  · rintro ⟨n, a, ha, hk, hlast, hvalue⟩
    exact ⟨n, a, ⟨ha, hk, hlast⟩, hvalue⟩
  · rintro ⟨n, a, ⟨ha, hk, hlast⟩, hvalue⟩
    exact ⟨n, a, ha, hk, hlast, hvalue⟩

end Attribute

namespace Table

variable {size : Nat}

def shown (t : Table size) : List (UInt16 × Bytes) :=
  t.slots.toList.zipIdx.filterMap fun (slot, kind) => slot.map (UInt16.ofNat kind, ·)

theorem lt_of_get? {t : Table size} {kind : Nat} {value : Bytes} (h : t.get? kind = some value) :
    kind < size := by
  by_contra hout
  have hnone : t.slots[kind]? = none := by simpa using hout
  rw [get?, hnone] at h
  cases h

theorem mem_present_iff {t : Table size} {kind : Nat} {value : Bytes} :
    (kind, value) ∈ t.present ↔ t.get? kind = some value := by
  simp only [present, List.mem_filterMap, List.mem_range, Option.map_eq_some_iff, Prod.mk.injEq]
  constructor
  · rintro ⟨kind, -, value, hget, rfl, rfl⟩
    exact hget
  · intro hget
    exact ⟨kind, lt_of_get? hget, value, hget, rfl, rfl⟩

theorem pairwise_present (t : Table size) : (t.present.map Prod.fst).Pairwise (· < ·) := by
  rw [List.pairwise_map, present]
  refine List.Pairwise.filterMap _ ?_ List.pairwise_lt_range
  intro kind kind' hlt item hitem item' hitem'
  obtain ⟨-, -, rfl⟩ := Option.map_eq_some_iff.1 hitem
  obtain ⟨-, -, rfl⟩ := Option.map_eq_some_iff.1 hitem'
  exact hlt

theorem zipIdx_slots (t : Table size) :
    t.slots.toList.zipIdx = (List.range size).map fun kind => (t.get? kind, kind) := by
  refine List.ext_getElem (by simp) fun kind hl hr => ?_
  simp at hl hr
  simp [get?, hr]

/-- Sixteen bits are enough for the kinds of a table in which only small ones have a value. -/
theorem shown_eq_present {t : Table size}
    (h : ∀ kind value, t.get? kind = some value → kind < 2 ^ 16) :
    t.shown.map (fun (kind, value) => (kind.toNat, value)) = t.present := by
  rw [shown, zipIdx_slots, List.filterMap_map, List.map_filterMap, present]
  refine List.filterMap_congr fun kind _ => ?_
  cases hget : t.get? kind with
  | none => simp [hget]
  | some value =>
      have hkind : kind % 65536 = kind := Nat.mod_eq_of_lt (h kind value hget)
      simp [hget, hkind]

inductive Use
  | decode (data : Bytes)
  | clear

def use (t : Table size) : Use → Table size
  | .decode data => (t.decode data).2
  | .clear => t.clear

def used (uses : List Use) : Table size := uses.foldl use empty

/-- What a decode answers, and the table after it. -/
structure Decoded (data : Bytes) (result : Except Error Unit) (t : Table size) : Prop where
  failed : ∀ e, result = .error e ↔ ∃ n, answer Attribute.next data n = some (.error e)
  emptied : ∀ e, result = .error e → t = empty
  got : result = .ok () → ∀ kind value, t.get? kind = some value ↔
    kind < size ∧ ∃ n a, Attribute.LastGiven data kind n a ∧ a.value = value
  contains : ∀ kind, t.contains kind = true ↔ ∃ value, t.get? kind = some value
  present : ∀ kind value, (kind, value) ∈ t.present ↔ t.get? kind = some value
  increasing : (t.present.map Prod.fst).Pairwise (· < ·)
  shown : t.shown.map (fun (kind, value) => (kind.toNat, value)) = t.present

theorem decode_eq_decode (t other : Table size) (data : Bytes) :
    other.decode data = t.decode data := by
  rw [decode, decode, Checked.clear_eq_empty, Checked.clear_eq_empty]

theorem get?_decode_eq_some_iff {t : Table size} {data : Bytes}
    (h : (Attribute.walk data).fault = none) {kind : Nat} {value : Bytes} :
    (t.decode data).2.get? kind = some value ↔
      kind < size ∧ Attribute.lastValue? (Attribute.walk data).items kind = some value := by
  constructor
  · intro hget
    have hk := lt_of_get? hget
    exact ⟨hk, (get?_decode t h hk).symm.trans hget⟩
  · rintro ⟨hk, hlast⟩
    exact (get?_decode t h hk).trans hlast

theorem get?_decode_lt {t : Table size} {data : Bytes} {kind : Nat} {value : Bytes}
    (hget : (t.decode data).2.get? kind = some value) : kind < Attribute.kindBound := by
  cases h : (Attribute.walk data).fault with
  | none =>
      obtain ⟨-, hlast⟩ := (get?_decode_eq_some_iff h).1 hget
      obtain ⟨n, a, -, rfl, -⟩ := Attribute.lastValue?_eq_some_iff.1 hlast
      exact a.kind_lt
  | some e =>
      rw [t.decode_of_fault_some h, get?_clear] at hget
      cases hget

theorem decoded_decode (t : Table size) (data : Bytes) :
    Decoded data (t.decode data).1 (t.decode data).2 where
  failed e := by
    simp only [Attribute.answer_eq_met, ← List.mem_iff_getElem?, Walk.error_mem_met_iff]
    cases h : (Attribute.walk data).fault with
    | none => simp [t.decode_of_fault_none h]
    | some e' => simp [t.decode_of_fault_some h]
  emptied e he := by
    cases h : (Attribute.walk data).fault with
    | none =>
        rw [t.decode_of_fault_none h] at he
        cases he
    | some e' =>
        rw [t.decode_of_fault_some h]
        exact Checked.clear_eq_empty t
  got hok kind value := by
    cases h : (Attribute.walk data).fault with
    | none => rw [get?_decode_eq_some_iff h, Attribute.lastValue?_walk_eq_some_iff]
    | some e =>
        rw [t.decode_of_fault_some h] at hok
        cases hok
  contains kind := Option.isSome_iff_exists
  present kind value := mem_present_iff
  increasing := pairwise_present _
  shown := shown_eq_present fun _ _ hget => (get?_decode_lt hget).trans (by decide)

/-- Whatever was done to a table before, the next decode gives just what is in the data: the loop
that takes in one attribute after the other, and a decode into a new table. -/
theorem decoded_used (uses : List Use) (data : Bytes) :
    let t : Table size := used uses
    Decoded data (t.decode data).1 (t.decode data).2 ∧
      (∀ other : Table size, other.decode data = t.decode data) ∧
      Checked.decodeTable t data = .ok (t.decode data) ∧
      ofBytes data = (t.decode data).1.map fun _ => (t.decode data).2 := by
  intro t
  refine ⟨decoded_decode t data, fun other => decode_eq_decode t other data,
    Checked.decodeTable_eq t data, ?_⟩
  rw [ofBytes, decode_eq_decode t empty data]
  obtain ⟨e | ⟨⟨⟩⟩, t'⟩ := t.decode data <;> rfl

end Table

end Netfilter
