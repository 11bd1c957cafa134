import Mathlib.Data.Nat.Bitwise
import Netfilter.Proofs.Bytes
import Netfilter.Wire.Attribute

/-!
# Checked computations

A machine with 64-bit words breaks down when an index or a range leaves the
bytes it is taken from, and when a sum, a difference or a product leaves its
word. A checked computation does all of this explicitly: it gives a value or
the way it broke down.

`Checked.forEach` is the one loop of all readers: it takes item after item off
a byte string until nothing is left or its body has seen enough.
-/

namespace Netfilter

inductive Breakdown
  | outOfRange
  | overflow
  deriving DecidableEq, Repr

abbrev Checked (α : Type) := Except Breakdown α

namespace Checked

@[simp] theorem ok_bind {α β : Type} (a : α) (f : α → Checked β) :
    (Except.ok a >>= f : Checked β) = f a := rfl

def word : Nat := 2 ^ 64

def halfWord : Nat := 2 ^ 32

def within (bound n : Nat) : Checked Nat := if n < bound then .ok n else .error .overflow

def add (bound a b : Nat) : Checked Nat := within bound (a + b)

def mul (bound a b : Nat) : Checked Nat := within bound (a * b)

def sub (a b : Nat) : Checked Nat := if b ≤ a then .ok (a - b) else .error .overflow

theorem add_eq {bound a b : Nat} (h : a + b < bound) : add bound a b = .ok (a + b) := if_pos h

theorem mul_eq {bound a b : Nat} (h : a * b < bound) : mul bound a b = .ok (a * b) := if_pos h

theorem sub_eq {a b : Nat} (h : b ≤ a) : sub a b = .ok (a - b) := if_pos h

def clearLow (n : Nat) : Nat := n &&& (word - 4)

theorem clearLow_eq {n : Nat} (h : n < word) : clearLow n = n / 4 * 4 := by
  have hmask : word - 4 = (2 ^ 62 - 1) <<< 2 := by decide
  have hshift : n / 4 * 4 = (n >>> 2) <<< 2 := by
    rw [Nat.shiftRight_eq_div_pow, Nat.shiftLeft_eq]
  rw [clearLow, hmask, hshift]
  apply Nat.eq_of_testBit_eq
  intro i
  rw [Nat.testBit_and, Nat.testBit_shiftLeft, Nat.testBit_shiftLeft, Nat.testBit_shiftRight,
    Nat.testBit_two_pow_sub_one]
  by_cases hlow : 2 ≤ i
  · have hindex : 2 + (i - 2) = i := by omega
    by_cases hhigh : i - 2 < 62
    · simp [hlow, hhigh, hindex]
    · have hlt : n < 2 ^ i := h.trans_le (Nat.pow_le_pow_right (by decide) (by omega))
      simp [hindex, Nat.testBit_lt_two_pow hlt]
  · simp [hlow]

def alignUp (n : Nat) : Checked Nat := do
  let raised ← add word n 4
  let raised ← sub raised 1
  .ok (clearLow raised)

theorem alignUp_eq {n : Nat} (h : n + 4 < word) : alignUp n = .ok (Bytes.alignUp n) := by
  have hone : 1 ≤ n + 4 := by omega
  have hover : n + 4 - 1 < word := by omega
  rw [alignUp, add_eq h, ok_bind, sub_eq hone, ok_bind, clearLow_eq hover, Bytes.alignUp]
  rfl

def slice (data : Bytes) (i j : Nat) : Checked Bytes :=
  if i ≤ j ∧ j ≤ data.length then .ok ((data.drop i).take (j - i)) else .error .outOfRange

def sliceFrom (data : Bytes) (i : Nat) : Checked Bytes := slice data i data.length

def byteAt (data : Bytes) (i : Nat) : Checked UInt8 :=
  match data[i]? with
  | some b => .ok b
  | none => .error .outOfRange

theorem slice_eq {data : Bytes} {i j : Nat} (hij : i ≤ j) (hj : j ≤ data.length) :
    slice data i j = .ok ((data.drop i).take (j - i)) := if_pos ⟨hij, hj⟩

theorem slice_zero_eq {data : Bytes} {j : Nat} (hj : j ≤ data.length) :
    slice data 0 j = .ok (data.take j) := slice_eq (Nat.zero_le j) hj

theorem sliceFrom_eq {data : Bytes} {i : Nat} (h : i ≤ data.length) :
    sliceFrom data i = .ok (data.drop i) := by
  rw [sliceFrom, slice_eq h le_rfl, ← List.length_drop, List.take_length]

/-- What follows a piece of `n` bytes, padding skipped; the end is not looked at. -/
def after (data : Bytes) (n : Nat) : Checked Bytes := do
  let aligned ← alignUp n
  if data.length ≤ aligned then .ok [] else sliceFrom data aligned

theorem after_eq {data : Bytes} {n : Nat} (h : n + 4 < word) :
    after data n = .ok (data.drop (Bytes.alignUp n)) := by
  rw [after, alignUp_eq h, ok_bind]
  by_cases hend : data.length ≤ Bytes.alignUp n
  · rw [if_pos hend, List.drop_eq_nil_of_le hend]
  · rw [if_neg hend, sliceFrom_eq (Nat.le_of_not_le hend)]

abbrev Taken (α : Type) := Option (Except Error α × Bytes)

/-- A way to take items off a byte string that makes headway. -/
structure Taking (α : Type) where
  next : Bytes → Checked (Taken α)
  shortens : ∀ {data rest : Bytes} {item : Except Error α},
    next data = .ok (some (item, rest)) → rest.length < data.length

variable {α σ : Type}

/-- Goes through the items of a byte string. The body also sees the bytes an item stands at the
front of, and says whether it wants to go on. -/
def forEach (t : Taking α) (body : Bytes → Except Error α → σ → Checked (ForInStep σ)) (s : σ)
    (data : Bytes) : Checked σ :=
  match _ : t.next data with
  | .error b => .error b
  | .ok none => .ok s
  | .ok (some (item, rest)) =>
      match body data item s with
      | .error b => .error b
      | .ok (.done s) => .ok s
      | .ok (.yield s) => forEach t body s rest
termination_by data.length
decreasing_by exact t.shortens ‹_›

section ForEach

variable {t : Taking α} {body : Bytes → Except Error α → σ → Checked (ForInStep σ)} {s s' : σ}
  {data rest : Bytes} {item : Except Error α}

theorem forEach_of_none (h : t.next data = .ok none) : forEach t body s data = .ok s := by
  rw [forEach]
  split <;> simp_all

theorem forEach_of_done (h : t.next data = .ok (some (item, rest)))
    (hbody : body data item s = .ok (.done s')) : forEach t body s data = .ok s' := by
  rw [forEach]
  split <;> simp_all

theorem forEach_of_yield (h : t.next data = .ok (some (item, rest)))
    (hbody : body data item s = .ok (.yield s')) :
    forEach t body s data = forEach t body s' rest := by
  rw [forEach]
  split <;> simp_all

end ForEach

def items (t : Taking α) (data : Bytes) : Checked (List (Except Error α)) :=
  forEach t (fun _ item found => .ok (.yield (found ++ [item]))) [] data

end Checked

end Netfilter
