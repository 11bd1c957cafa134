import Netfilter.Error
import Netfilter.Proofs.Bytes

/-!
# Items one after the other

Attributes and messages stand in a byte string in the same way: each is written
in one piece, and after it stand bytes of any value up to the next multiple of
four, of which only the last item may lack some. A reader that takes such items
off the front answers, call after call, with the items of the longest sequence
of them, then with one defect if bytes are left, and with nothing from then on.
-/

namespace Netfilter

structure Framing (α : Type) where
  /-- The item without padding. -/
  write : α → Bytes
  /-- The length of the item can be told. -/
  Sound : α → Prop
  write_ne_nil : ∀ a, write a ≠ []

namespace Framing

variable {α : Type} (f : Framing α)

def space (a : α) : Nat := Bytes.alignUp (f.write a).length

/-- The items stand at the front of `data`, and `rest` comes after the space they take. -/
inductive Begins : List α → Bytes → Bytes → Prop
  | nil (data : Bytes) : Begins [] data data
  | cons {a : α} {as : List α} {data rest : Bytes} (sound : f.Sound a)
      (front : f.write a <+: data) (later : Begins as (data.drop (f.space a)) rest) :
      Begins (a :: as) data rest

inductive Padded : List α → Bytes → Prop
  | nil : Padded [] []
  | cons {a : α} {as : List α} {padding rest : Bytes} (sound : f.Sound a)
      (full : (f.write a ++ padding).length = f.space a) (later : Padded as rest) :
      Padded (a :: as) (f.write a ++ padding ++ rest)

/-- Items one after the other. The padding of the last may be missing or cut short. -/
inductive Listed : List α → Bytes → Prop
  | nil : Listed [] []
  | last {a : α} {padding : Bytes} (sound : f.Sound a)
      (cut : (f.write a ++ padding).length ≤ f.space a) : Listed [a] (f.write a ++ padding)
  | cons {a : α} {as : List α} {padding rest : Bytes} (sound : f.Sound a)
      (full : (f.write a ++ padding).length = f.space a) (later : Listed as rest) :
      Listed (a :: as) (f.write a ++ padding ++ rest)

def position (as : List α) (n : Nat) : Nat := ((as.take n).map f.space).sum

variable {f} {a : α} {as bs : List α} {data front rest left : Bytes}

theorem length_write_le_space (f : Framing α) (a : α) : (f.write a).length ≤ f.space a :=
  Bytes.le_alignUp _

theorem space_pos (f : Framing α) (a : α) : 0 < f.space a :=
  (List.length_pos_of_ne_nil (f.write_ne_nil a)).trans_le (f.length_write_le_space a)

theorem position_cons_succ (f : Framing α) (a : α) (as : List α) (n : Nat) :
    f.position (a :: as) (n + 1) = f.space a + f.position as n := by
  rw [position, List.take_succ_cons, List.map_cons, List.sum_cons, position]

theorem position_succ {n : Nat} (ha : as[n]? = some a) :
    f.position as (n + 1) = f.position as n + f.space a := by
  rw [position, List.take_add_one, ha, Option.toList_some, List.map_append, List.sum_append, position,
    List.map_singleton, List.sum_singleton]

theorem position_mod (f : Framing α) (as : List α) (n : Nat) : f.position as n % 4 = 0 := by
  induction as generalizing n with
  | nil => simp [position]
  | cons a as ih =>
      cases n with
      | zero => rfl
      | succ n =>
          have hspace : f.space a % 4 = 0 := Bytes.alignUp_mod _
          have hlater := ih n
          rw [position_cons_succ]
          omega

theorem begins_nil_right (h : f.Begins as [] rest) : as = [] ∧ rest = [] := by
  cases h with
  | nil => exact ⟨rfl, rfl⟩
  | cons sound front later => exact absurd (List.prefix_nil.1 front) (f.write_ne_nil _)

theorem Padded.begins (h : f.Padded as front) (rest : Bytes) : f.Begins as (front ++ rest) rest := by
  induction h with
  | nil => exact .nil rest
  | @cons a as padding later sound full _ ih =>
      have hdrop : (f.write a ++ padding ++ later ++ rest).drop (f.space a) = later ++ rest := by
        rw [List.append_assoc, List.drop_left' full]
      refine .cons sound ?_ (by rwa [hdrop])
      rw [List.append_assoc, List.append_assoc]
      exact List.prefix_append _ _

theorem Listed.begins (h : f.Listed as data) : f.Begins as data [] := by
  induction h with
  | nil => exact .nil []
  | @last a padding sound cut =>
      refine .cons sound (List.prefix_append _ _) ?_
      rw [List.drop_eq_nil_of_le cut]
      exact .nil []
  | @cons a as padding later sound full _ ih =>
      have hdrop : (f.write a ++ padding ++ later).drop (f.space a) = later := List.drop_left' full
      refine .cons sound ?_ (by rwa [hdrop])
      rw [List.append_assoc]
      exact List.prefix_append _ _

theorem exists_padding (front : f.write a <+: data) (hroom : f.space a ≤ data.length) :
    ∃ padding, (f.write a ++ padding).length = f.space a ∧
      data = f.write a ++ padding ++ data.drop (f.space a) := by
  have hle := f.length_write_le_space a
  have htake : data.take (f.space a) =
      f.write a ++ (data.take (f.space a)).drop (f.write a).length := by
    conv_lhs => rw [← List.take_append_drop (f.write a).length (data.take (f.space a))]
    rw [List.take_take, Nat.min_eq_left hle, ← List.prefix_iff_eq_take.1 front]
  refine ⟨(data.take (f.space a)).drop (f.write a).length, ?_, ?_⟩
  · rw [← htake, List.length_take, Nat.min_eq_left hroom]
  · rw [← htake, List.take_append_drop]

/-- If something comes after the items, then none of them lacks padding. -/
theorem Begins.padded (h : f.Begins as data rest) (hne : rest ≠ []) :
    ∃ front, data = front ++ rest ∧ f.Padded as front := by
  induction h with
  | nil data => exact ⟨[], rfl, .nil⟩
  | @cons a as data rest sound front later ih =>
      obtain ⟨after, hafter, hpadded⟩ := ih hne
      have hroom : f.space a ≤ data.length := by
        by_contra hshort
        rw [List.drop_eq_nil_of_le (by omega)] at hafter
        exact hne (List.append_eq_nil_iff.1 hafter.symm).2
      obtain ⟨padding, hfull, hdata⟩ := exists_padding front hroom
      refine ⟨f.write a ++ padding ++ after, ?_, .cons sound hfull hpadded⟩
      rw [List.append_assoc _ after, ← hafter]
      exact hdata

theorem Begins.listed (h : f.Begins as data rest) (hnil : rest = []) : f.Listed as data := by
  induction h with
  | nil data =>
      subst hnil
      exact .nil
  | @cons a as data rest sound front later ih =>
      -- an item without room for its padding is the last one
      by_cases hroom : f.space a ≤ data.length
      · obtain ⟨padding, hfull, hdata⟩ := exists_padding front hroom
        rw [hdata]
        exact .cons sound hfull (ih hnil)
      · rw [List.drop_eq_nil_of_le (by omega)] at later
        obtain ⟨rfl, -⟩ := begins_nil_right later
        obtain ⟨padding, rfl⟩ := front
        exact .last sound (by omega)

theorem Begins.front_of_getElem? (h : f.Begins as data rest) {n : Nat} (ha : as[n]? = some a) :
    f.Sound a ∧ f.write a <+: data.drop (f.position as n) := by
  induction h generalizing n with
  | nil data => simp at ha
  | @cons b as data rest sound front later ih =>
      cases n with
      | zero =>
          obtain rfl : b = a := by simpa using ha
          exact ⟨sound, front⟩
      | succ n =>
          rw [position_cons_succ, ← List.drop_drop]
          exact ih (by simpa using ha)

end Framing

namespace Reading

variable {α : Type} (next : Bytes → Option (Except Error α × Bytes)) (data : Bytes)

/-- What is left of `data` before the call of number `n`. -/
def left : Nat → Bytes
  | 0 => data
  | n + 1 =>
      match next (left n) with
      | none => left n
      | some (_, rest) => rest

def answer (n : Nat) : Option (Except Error α) := (next (left next data n)).map Prod.fst

variable {next} {data rest : Bytes} {item : Except Error α}

theorem left_succ_of_next (h : next data = some (item, rest)) (n : Nat) :
    left next data (n + 1) = left next rest n := by
  induction n with
  | zero => simp only [left, h]
  | succ n ih =>
      rw [left, ih]
      rfl

theorem left_of_next_none (h : next data = none) (n : Nat) : left next data n = data := by
  induction n with
  | zero => rfl
  | succ n ih =>
      rw [left, ih]
      simp only [h]

theorem answer_succ_of_next (h : next data = some (item, rest)) (n : Nat) :
    answer next data (n + 1) = answer next rest n := by
  rw [answer, left_succ_of_next h, answer]

theorem answer_of_next_none (h : next data = none) (n : Nat) : answer next data n = none := by
  rw [answer, left_of_next_none h, h, Option.map_none]

theorem getElem?_eq_ok_iff {as : List α} {last : Option (Except Error α)}
    (hlast : ∀ a, last ≠ some (.ok a)) {n : Nat} {a : α} :
    (as.map .ok ++ last.toList)[n]? = some (.ok a) ↔ as[n]? = some a := by
  by_cases hn : n < as.length
  · rw [List.getElem?_append_left (by simpa using hn), List.getElem?_map]
    simp
  · rw [List.getElem?_append_right (by simpa using hn), List.getElem?_eq_none (Nat.not_lt.1 hn)]
    constructor
    · intro h
      exact absurd (Option.mem_toList.1 (List.mem_of_getElem? h)) (hlast a)
    · intro h
      cases h

end Reading

namespace Framing

open Reading (left answer)

variable {α : Type} {f : Framing α} {next : Bytes → Option (Except Error α × Bytes)}
  {as bs : List α} {data rest rest' : Bytes}

/-- A reader takes off what stands at the front, as long as something is left. -/
structure Obeys (f : Framing α) (next : Bytes → Option (Except Error α × Bytes)) : Prop where
  none_iff {data : Bytes} : next data = none ↔ data = []
  ok_iff {data rest : Bytes} {a : α} : next data = some (.ok a, rest) ↔
    f.Sound a ∧ f.write a <+: data ∧ rest = data.drop (f.space a)
  spent {data rest : Bytes} {e : Error} : next data = some (.error e, rest) → rest = []

def Stuck (next : Bytes → Option (Except Error α × Bytes)) (data : Bytes) : Prop :=
  ∀ a rest, next data ≠ some (.ok a, rest)

namespace Obeys

theorem begins_cons (h : f.Obeys next) {a : α} (hnext : next data = some (.ok a, rest))
    (hlater : f.Begins as rest rest') : f.Begins (a :: as) data rest' := by
  obtain ⟨sound, front, rfl⟩ := h.ok_iff.1 hnext
  exact .cons sound front hlater

theorem exists_longest (h : f.Obeys next) (data : Bytes) :
    ∃ as rest, f.Begins as data rest ∧ Stuck next rest := by
  -- what is left after an item is shorter, since no item is written as nothing
  induction hn : data.length using Nat.strong_induction_on generalizing data with
  | _ n ih =>
      subst hn
      by_cases hstuck : Stuck next data
      · exact ⟨[], data, .nil data, hstuck⟩
      · unfold Stuck at hstuck
        push Not at hstuck
        obtain ⟨a, rest, hnext⟩ := hstuck
        obtain ⟨-, front, hrest⟩ := h.ok_iff.1 hnext
        have hpos := f.space_pos a
        have hwrite := List.length_pos_of_ne_nil (f.write_ne_nil a)
        have hshort : rest.length < data.length := by
          have hle := front.length_le
          rw [hrest, List.length_drop]
          omega
        obtain ⟨as, rest', hlater, hend⟩ := ih rest.length hshort rest rfl
        exact ⟨a :: as, rest', h.begins_cons hnext hlater, hend⟩

/-- No sequence at the front is longer than the one at whose end the reader is stuck. -/
theorem isPrefix (h : f.Obeys next) (ha : f.Begins as data rest) (hstuck : Stuck next rest)
    (hb : f.Begins bs data rest') : bs <+: as := by
  induction ha generalizing bs with
  | nil data =>
      cases hb with
      | nil => exact List.prefix_rfl
      | cons sound front later => exact absurd (h.ok_iff.2 ⟨sound, front, rfl⟩) (hstuck _ _)
  | @cons a as data rest sound front later ih =>
      cases hb with
      | nil => exact List.nil_prefix
      | @cons b bs _ _ sound' front' later' =>
          have hnext := h.ok_iff.2 ⟨sound, front, rfl⟩
          have hnext' := h.ok_iff.2 ⟨sound', front', rfl⟩
          obtain rfl : a = b := by
            rw [hnext] at hnext'
            simpa using congrArg (Option.map Prod.fst) hnext'
          exact List.cons_prefix_cons.2 ⟨rfl, ih hstuck later'⟩

theorem left_eq_drop (h : f.Obeys next) (hb : f.Begins as data rest) {n : Nat}
    (hn : n ≤ as.length) : left next data n = data.drop (f.position as n) := by
  induction hb generalizing n with
  | nil data =>
      obtain rfl : n = 0 := Nat.le_zero.1 hn
      rfl
  | @cons a as data rest sound front later ih =>
      cases n with
      | zero => rfl
      | succ n =>
          rw [Reading.left_succ_of_next (h.ok_iff.2 ⟨sound, front, rfl⟩), position_cons_succ,
            ← List.drop_drop]
          exact ih (Nat.le_of_succ_le_succ hn)

theorem left_after (h : f.Obeys next) (hb : f.Begins as data rest) (n : Nat) :
    left next data (as.length + n) = left next rest n := by
  induction hb with
  | nil data => rw [List.length_nil, Nat.zero_add]
  | @cons a as data rest sound front later ih =>
      rw [List.length_cons, Nat.add_right_comm,
        Reading.left_succ_of_next (h.ok_iff.2 ⟨sound, front, rfl⟩), ih]

theorem left_of_end (h : f.Obeys next) (hstuck : Stuck next data) (n : Nat) :
    left next data (n + 1) = [] := by
  cases hnext : next data with
  | none =>
      rw [Reading.left_of_next_none hnext]
      exact h.none_iff.1 hnext
  | some taken =>
      obtain ⟨e | a, rest⟩ := taken
      · rw [Reading.left_succ_of_next hnext, h.spent hnext]
        exact Reading.left_of_next_none (h.none_iff.2 rfl) n
      · exact absurd hnext (hstuck a rest)

/-- The answers of all calls: the items, a defect if one ends them, and nothing from then on. -/
theorem answer_eq (h : f.Obeys next) (hb : f.Begins as data rest) (hstuck : Stuck next rest)
    (n : Nat) : answer next data n =
      (as.map .ok ++ ((next rest).map Prod.fst).toList)[n]? := by
  induction hb generalizing n with
  | nil data =>
      cases hnext : next data with
      | none => simp [Reading.answer_of_next_none hnext]
      | some taken =>
          obtain ⟨item, rest⟩ := taken
          cases n with
          | zero => simp [answer, left, hnext]
          | succ n =>
              have hrest : left next data (n + 1) = [] := h.left_of_end hstuck n
              rw [answer, hrest, h.none_iff.2 rfl]
              simp
  | @cons a as data rest sound front later ih =>
      have hnext := h.ok_iff.2 ⟨sound, front, rfl⟩
      cases n with
      | zero => simp [answer, left, hnext]
      | succ n =>
          rw [Reading.answer_succ_of_next hnext, ih hstuck]
          simp

theorem answer_eq_ok_iff (h : f.Obeys next) (hb : f.Begins as data rest) (hstuck : Stuck next rest)
    {n : Nat} {a : α} : answer next data n = some (.ok a) ↔ as[n]? = some a := by
  rw [h.answer_eq hb hstuck]
  refine Reading.getElem?_eq_ok_iff fun b hb => ?_
  obtain ⟨⟨item, later⟩, hnext, rfl⟩ := Option.map_eq_some_iff.1 hb
  exact hstuck b later hnext

end Obeys

end Framing

end Netfilter
