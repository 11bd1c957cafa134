import Mathlib
import Netfilter.Json.Number

/-!
# Numbers in JSON

Where a number ends shows only in what stands behind it. A whole number that
was written is read back in front of anything that does not go on with it, and
a number of any other spelling is skipped there, whatever its size.
-/

namespace Netfilter

namespace Json

def Delimited (rest : List Char) : Prop :=
  ∀ c ∈ rest.head?, isBlank c = true ∨ c = ',' ∨ c = ']' ∨ c = '}'

theorem delimited_nil : Delimited [] := by
  intro c hc
  cases hc

theorem delimited_cons {c : Char} (rest : List Char)
    (h : isBlank c = true ∨ c = ',' ∨ c = ']' ∨ c = '}') : Delimited (c :: rest) := by
  intro d hd
  cases hd
  exact h

def Stops (rest : List Char) : Prop :=
  ∀ c ∈ rest.head?, isDigit c = false ∧ c ≠ '.' ∧ c ≠ 'e' ∧ c ≠ 'E'

theorem Delimited.stops {rest : List Char} (h : Delimited rest) : Stops rest := by
  intro c hc
  have hcases := h c hc
  simp only [isBlank, Bool.or_eq_true, decide_eq_true_eq] at hcases
  rcases hcases with (((rfl | rfl) | rfl) | rfl) | rfl | rfl | rfl <;> decide

theorem Stops.digit {rest : List Char} (h : Stops rest) : ∀ c ∈ rest.head?, isDigit c = false :=
  fun c hc => (h c hc).1

theorem dropWhile_of_head {p : Char → Bool} {cs : List Char} (h : ∀ c ∈ cs.head?, p c = false) :
    cs.dropWhile p = cs := by
  cases cs with
  | nil => rfl
  | cons c cs => rw [List.dropWhile_cons_of_neg (by simp [h c rfl])]

theorem dropWhile_append {p : Char → Bool} {taken rest : List Char} (h : ∀ c ∈ taken, p c = true)
    (hrest : ∀ c ∈ rest.head?, p c = false) : (taken ++ rest).dropWhile p = rest := by
  rw [List.dropWhile_append_of_pos h, dropWhile_of_head hrest]

theorem isDigit_eq (c : Char) : isDigit c = c.isDigit := by
  simp only [isDigit, Char.isDigit, Char.le_def, ge_iff_le]

namespace Number

theorem le_ofDigitChars (ds : List Char) (n : Nat) : n ≤ Nat.ofDigitChars 10 ds n := by
  induction ds generalizing n with
  | nil => exact le_rfl
  | cons d ds ih =>
      rw [Nat.ofDigitChars_cons]
      have := ih (10 * n + (d.toNat - '0'.toNat))
      omega

/-- As long as the value fits, all leading digits are taken. -/
theorem extend_append {ds rest : List Char} {n : Nat} (hds : ∀ d ∈ ds, isDigit d = true)
    (hrest : ∀ c ∈ rest.head?, isDigit c = false)
    (hfits : Nat.ofDigitChars 10 ds n < significandBound) :
    extend n (ds ++ rest) = (Nat.ofDigitChars 10 ds n, ds.length, rest) := by
  induction ds generalizing n with
  | nil =>
      cases rest with
      | nil => rfl
      | cons c cs => simp [extend, hrest c rfl, Nat.ofDigitChars]
  | cons d ds ih =>
      rw [Nat.ofDigitChars_cons] at hfits
      have hlonger : n * 10 + digitValue d = 10 * n + (d.toNat - '0'.toNat) := by
        rw [digitValue, Nat.mul_comm]
      have hbound : n * 10 + digitValue d < significandBound := by
        have := le_ofDigitChars ds (10 * n + (d.toNat - '0'.toNat))
        omega
      have htaken := ih (fun x hx => hds x (List.mem_cons_of_mem _ hx)) hfits
      rw [← hlonger] at htaken
      simp only [List.cons_append, extend, hds d List.mem_cons_self, hbound, decide_true,
        Bool.and_self, if_true, htaken, List.length_cons, Nat.ofDigitChars_cons, ← hlonger]

theorem isDigit_of_mem_write {n : Nat} {c : Char} (h : c ∈ write n) : isDigit c = true := by
  rw [isDigit_eq]
  exact Nat.isDigit_of_mem_toDigits (by decide) (by decide) h

theorem exists_write (n : Nat) : ∃ c cs, write n = c :: cs ∧ isDigit c = true := by
  obtain ⟨c, cs, hw⟩ := List.exists_cons_of_ne_nil (Nat.toDigits_ne_nil : write n ≠ [])
  exact ⟨c, cs, hw, isDigit_of_mem_write (hw ▸ List.mem_cons_self)⟩

/-- No number but zero is written with a zero in front. -/
theorem head_write_ne_zero {n : Nat} (h : 0 < n) : ∀ c ∈ (write n).head?, c ≠ '0' := by
  unfold write
  induction n using Nat.strong_induction_on with
  | _ n ih =>
      rw [Nat.toDigits_eq_if (by decide)]
      split
      · intro c hc
        cases hc
        revert h
        interval_cases n <;> decide
      · have := ih (n / 10) (by omega) (by omega)
        rwa [List.head?_append_of_ne_nil _ Nat.toDigits_ne_nil]

theorem unsigned_zero {isNegative : Bool} {rest : List Char}
    (h : ∀ c ∈ rest.head?, isDigit c = false) :
    unsigned isNegative ('0' :: rest) = afterDigits isNegative 0 0 rest := by
  unfold unsigned
  cases rest with
  | nil => rfl
  | cons c cs => simp [h c rfl]

theorem afterDigits_whole {n : Nat} {rest : List Char} (h : Stops rest) :
    afterDigits false n 0 rest = .ok (.whole n, rest) := by
  unfold afterDigits
  split
  · exact absurd rfl (h _ rfl).2.1
  · exact absurd rfl (h _ rfl).2.2.1
  · exact absurd rfl (h _ rfl).2.2.2
  · rfl

theorem unsigned_digit {isNegative : Bool} {c : Char} {cs : List Char} (hzero : c ≠ '0')
    (hc : isDigit c = true) : unsigned isNegative (c :: cs) =
      let (significand, _, rest) := extend 0 (c :: cs)
      afterDigits isNegative significand (rest.takeWhile isDigit).length
        (rest.dropWhile isDigit) := by
  unfold unsigned
  split
  · next h => cases h
  · next h => exact absurd (List.cons.inj h).1 hzero
  · next h =>
      obtain ⟨rfl, rfl⟩ := List.cons.inj h
      rw [if_pos hc]

theorem unsigned_write {n : Nat} {rest : List Char} (hn : n < significandBound)
    (hrest : Stops rest) : unsigned false (write n ++ rest) = .ok (.whole n, rest) := by
  rcases Nat.eq_zero_or_pos n with rfl | hpos
  · exact (unsigned_zero hrest.digit).trans (afterDigits_whole hrest)
  · have hvalue : Nat.ofDigitChars 10 (write n) 0 = n :=
      Nat.ofDigitChars_toDigits (by decide) (by decide)
    have htaken := extend_append (n := 0) (fun d hd => isDigit_of_mem_write hd) hrest.digit
      (by rwa [hvalue])
    rw [hvalue] at htaken
    obtain ⟨c, cs, hw, hc⟩ := exists_write n
    have hzero : c ≠ '0' := head_write_ne_zero hpos c (by rw [hw]; rfl)
    have hskipped : rest.takeWhile isDigit = [] := by
      cases rest with
      | nil => rfl
      | cons d ds => rw [List.takeWhile_cons_of_neg (by simp [hrest.digit d rfl])]
    rw [hw, List.cons_append] at htaken ⊢
    rw [unsigned_digit hzero hc, htaken]
    simp only [hskipped, List.length_nil, dropWhile_of_head hrest.digit]
    exact afterDigits_whole hrest

theorem read_of_digit {c : Char} {cs : List Char} (hc : isDigit c = true) :
    read (c :: cs) = unsigned false (c :: cs) := by
  unfold read
  split
  · next h =>
      rw [(List.cons.inj h).1] at hc
      exact absurd hc (by decide)
  · rfl

/-- A whole number is read back, digit by digit, up to what does not go on with it. -/
theorem read_write {n : Nat} {rest : List Char} (hn : n < significandBound)
    (hrest : Stops rest) : read (write n ++ rest) = .ok (.whole n, rest) := by
  obtain ⟨c, cs, hw, hc⟩ := exists_write n
  have hread := unsigned_write hn hrest
  rw [hw, List.cons_append] at hread ⊢
  rw [read_of_digit hc, hread]

def IsDigits (ds : List Char) : Prop := ds ≠ [] ∧ ∀ d ∈ ds, isDigit d = true

/-- The digits in front: a zero alone, or digits that do not start with zero. -/
inductive IsWhole : List Char → Prop
  | zero : IsWhole ['0']
  | digits {d : Char} {ds : List Char} :
      d ≠ '0' → isDigit d = true → (∀ x ∈ ds, isDigit x = true) → IsWhole (d :: ds)

inductive IsFraction : List Char → Prop
  | none : IsFraction []
  | digits {ds : List Char} : IsDigits ds → IsFraction ('.' :: ds)

inductive IsExponent : List Char → Prop
  | none : IsExponent []
  | digits {mark : Char} {sign ds : List Char} : mark = 'e' ∨ mark = 'E' →
      sign = [] ∨ sign = ['+'] ∨ sign = ['-'] → IsDigits ds → IsExponent (mark :: sign ++ ds)

inductive IsSpelled : List Char → Prop
  | of {sign whole fraction exponent : List Char} : sign = [] ∨ sign = ['-'] → IsWhole whole →
      IsFraction fraction → IsExponent exponent →
      IsSpelled (sign ++ (whole ++ (fraction ++ exponent)))

theorem skipDigits_append {ds rest : List Char} (hds : IsDigits ds)
    (hrest : ∀ c ∈ rest.head?, isDigit c = false) : skipDigits (ds ++ rest) = .ok rest := by
  obtain ⟨hne, hall⟩ := hds
  obtain ⟨d, ds, rfl⟩ := List.exists_cons_of_ne_nil hne
  rw [List.forall_mem_cons] at hall
  rw [List.cons_append, skipDigits, if_pos hall.1, dropWhile_append hall.2 hrest]

theorem skipExponent_of_head {cs : List Char} (h : ∀ c ∈ cs.head?, c ≠ 'e' ∧ c ≠ 'E') :
    skipExponent cs = .ok cs := by
  unfold skipExponent
  split
  case h_7 => rfl
  all_goals
    have hmark := h _ rfl
    simp at hmark

theorem skipExponent_append {e rest : List Char} (he : IsExponent e) (hrest : Stops rest) :
    skipExponent (e ++ rest) = .ok rest := by
  cases he with
  | none => exact skipExponent_of_head fun c hc => (hrest c hc).2.2
  | @digits mark sign ds hmark hsign hds =>
      have hskip := skipDigits_append hds hrest.digit
      obtain ⟨d, ds, rfl⟩ := List.exists_cons_of_ne_nil hds.1
      have hd : isDigit d = true := hds.2 d List.mem_cons_self
      -- A digit is no sign, so without a sign the digits start at once.
      have hplus : d ≠ '+' := by rintro rfl; exact absurd hd (by decide)
      have hminus : d ≠ '-' := by rintro rfl; exact absurd hd (by decide)
      rcases hmark with rfl | rfl <;> rcases hsign with rfl | rfl | rfl <;>
        simpa [skipExponent, hplus, hminus] using hskip

theorem head_exponent {e rest : List Char} (he : IsExponent e) (hrest : Stops rest) :
    ∀ c ∈ (e ++ rest).head?, isDigit c = false ∧ c ≠ '.' := by
  intro c hc
  cases he with
  | none => exact ⟨(hrest c hc).1, (hrest c hc).2.1⟩
  | digits hmark _ _ =>
      cases hc
      rcases hmark with rfl | rfl <;> decide

theorem head_fraction {f e rest : List Char} (hf : IsFraction f) (he : IsExponent e)
    (hrest : Stops rest) : ∀ c ∈ (f ++ (e ++ rest)).head?, isDigit c = false := by
  intro c hc
  cases hf with
  | none => exact (head_exponent he hrest c hc).1
  | digits _ =>
      cases hc
      decide

theorem skipFraction_append {f e rest : List Char} (hf : IsFraction f) (he : IsExponent e)
    (hrest : Stops rest) : skipFraction (f ++ (e ++ rest)) = .ok rest := by
  have hexp := skipExponent_append he hrest
  have hhead := head_exponent he hrest
  cases hf with
  | none =>
      rw [List.nil_append]
      unfold skipFraction
      split
      · next heq =>
          rw [heq] at hhead
          exact absurd rfl (hhead _ rfl).2
      · exact hexp
  | @digits ds hds =>
      have hskip := skipDigits_append hds fun c hc => (hhead c hc).1
      simp only [List.cons_append, skipFraction, hskip, hexp]

theorem skipUnsigned_append {w f e rest : List Char} (hw : IsWhole w) (hf : IsFraction f)
    (he : IsExponent e) (hrest : Stops rest) :
    skipUnsigned (w ++ (f ++ (e ++ rest))) = .ok rest := by
  have hafter := skipFraction_append hf he hrest
  have hhead := head_fraction hf he hrest
  cases hw with
  | zero =>
      have hnone : ((f ++ (e ++ rest)).head?.map isDigit).getD false = false := by
        cases hc : (f ++ (e ++ rest)).head? with
        | none => rfl
        | some c => exact hhead c hc
      rw [List.singleton_append, skipUnsigned, hnone, if_neg Bool.false_ne_true, hafter]
  | @digits d ds hzero hd hds =>
      have hskip : skipDigits (d :: ds ++ (f ++ (e ++ rest))) = .ok (f ++ (e ++ rest)) :=
        skipDigits_append ⟨List.cons_ne_nil _ _, List.forall_mem_cons.2 ⟨hd, hds⟩⟩ hhead
      unfold skipUnsigned
      split
      · next heq => exact absurd (List.cons.inj heq).1 hzero
      · simp only [hskip, hafter]

theorem IsWhole.exists_digit {w : List Char} (h : IsWhole w) :
    ∃ c cs, w = c :: cs ∧ isDigit c = true := by
  cases h with
  | zero => exact ⟨'0', [], rfl, by decide⟩
  | digits _ hd _ => exact ⟨_, _, rfl, hd⟩

/-- A number of any size is skipped, up to what does not go on with it. -/
theorem skip_append {n rest : List Char} (hn : IsSpelled n) (hrest : Stops rest) :
    skip (n ++ rest) = .ok rest := by
  obtain ⟨hsign, hw, hf, he⟩ := hn
  have hskip := skipUnsigned_append hw hf he hrest
  simp only [List.append_assoc]
  rcases hsign with rfl | rfl
  · obtain ⟨c, cs, rfl, hc⟩ := hw.exists_digit
    have hminus : c ≠ '-' := by rintro rfl; exact absurd hc (by decide)
    unfold skip
    split
    · next heq => exact absurd (List.cons.inj heq).1 hminus
    · exact hskip
  · exact hskip

/-- A number starts with its sign or a digit. -/
theorem IsSpelled.exists_cons {n : List Char} (h : IsSpelled n) :
    ∃ c cs, n = c :: cs ∧ (c = '-' ∨ isDigit c = true) := by
  obtain ⟨rfl | rfl, hw, _, _⟩ := h
  · obtain ⟨c, cs, rfl, hc⟩ := hw.exists_digit
    exact ⟨c, _, rfl, .inr hc⟩
  · exact ⟨'-', _, rfl, .inl rfl⟩

end Number

end Json

end Netfilter
