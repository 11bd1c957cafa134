import Mathlib
import Netfilter.Json.Quoted

/-!
# Strings in JSON

Every text may stand in a string in many ways: a character as itself, by a
letter after a backslash, by its number, or by two halves of it. A string is
read as the text it spells, whichever way was taken. Skipped, it only has to
keep to its escapes.
-/

namespace Netfilter

namespace Json.Quoted

inductive IsCode : List Char → Nat → Prop
  | of {a b c d : Char} {w x y z : Nat} :
      hexValue? a = some w → hexValue? b = some x → hexValue? c = some y → hexValue? d = some z →
      IsCode [a, b, c, d] (((w * 16 + x) * 16 + y) * 16 + z)

/-- What may stand between quotation marks. A half of a character needs no other half. -/
inductive IsBody : List Char → Prop
  | nil : IsBody []
  | plain {c : Char} {q : List Char} : c ≠ '"' → c ≠ '\\' → 32 ≤ c.toNat → IsBody q →
      IsBody (c :: q)
  | short {e c : Char} {q : List Char} : shortEscape? e = some c → IsBody q →
      IsBody ('\\' :: e :: q)
  | code {ds q : List Char} {n : Nat} : IsCode ds n → IsBody q → IsBody ('\\' :: 'u' :: (ds ++ q))

inductive Spells : List Char → List Char → Prop
  | nil : Spells [] []
  | plain {c : Char} {q t : List Char} : c ≠ '"' → c ≠ '\\' → 32 ≤ c.toNat → Spells q t →
      Spells (c :: q) (c :: t)
  | short {e c : Char} {q t : List Char} : shortEscape? e = some c → Spells q t →
      Spells ('\\' :: e :: q) (c :: t)
  | code {ds q t : List Char} {n : Nat} : IsCode ds n → isFirstHalf n = false →
      isSecondHalf n = false → Spells q t → Spells ('\\' :: 'u' :: (ds ++ q)) (Char.ofNat n :: t)
  | halves {ds es q t : List Char} {first second : Nat} : IsCode ds first → IsCode es second →
      isFirstHalf first = true → isSecondHalf second = true → Spells q t →
      Spells ('\\' :: 'u' :: (ds ++ '\\' :: 'u' :: (es ++ q)))
        (Char.ofNat ((first - 0xD800) * 1024 + (second - 0xDC00) + 0x10000) :: t)

theorem fourDigits_append {ds rest : List Char} {n : Nat} (h : IsCode ds n) :
    fourDigits (ds ++ rest) = .ok (n, rest) := by
  obtain ⟨ha, hb, hc, hd⟩ := h
  rename_i a b c d w x y z
  have hbytes : hasFourBytes (a :: b :: c :: d :: rest) = true := by
    have := a.utf8Size_pos
    have := b.utf8Size_pos
    have := c.utf8Size_pos
    have := d.utf8Size_pos
    simp [hasFourBytes]
    omega
  simp only [List.cons_append, List.nil_append, fourDigits, hbytes, if_true, ha, hb, hc, hd]

theorem escaped_short {e c : Char} {rest : List Char} (h : shortEscape? e = some c) :
    escaped (e :: rest) = .ok (c, rest) := by
  unfold escaped
  split
  · next heq => cases heq
  · next heq =>
      obtain ⟨rfl, _⟩ := List.cons.inj heq
      cases h
  · next heq =>
      obtain ⟨rfl, rfl⟩ := List.cons.inj heq
      rw [h]

theorem escaped_code {ds rest : List Char} {n : Nat} (h : IsCode ds n)
    (hfirst : isFirstHalf n = false) (hsecond : isSecondHalf n = false) :
    escaped ('u' :: (ds ++ rest)) = .ok (Char.ofNat n, rest) := by
  simp [escaped, namedByNumber, fourDigits_append h, hfirst, hsecond]

theorem escaped_halves {ds es rest : List Char} {first second : Nat} (hds : IsCode ds first)
    (hes : IsCode es second) (hfirst : isFirstHalf first = true)
    (hsecond : isSecondHalf second = true) :
    escaped ('u' :: (ds ++ '\\' :: 'u' :: (es ++ rest))) =
      .ok (Char.ofNat ((first - 0xD800) * 1024 + (second - 0xDC00) + 0x10000), rest) := by
  have halone : isSecondHalf first = false := by
    simp only [isFirstHalf, isSecondHalf, Bool.and_eq_true, decide_eq_true_eq, Bool.and_eq_false_iff,
      decide_eq_false_iff_not] at hfirst ⊢
    omega
  simp [escaped, namedByNumber, fourDigits_append hds, hfirst, halone, secondHalf,
    fourDigits_append hes, hsecond]

theorem skipEscaped_short {e c : Char} {rest : List Char} (h : shortEscape? e = some c) :
    skipEscaped (e :: rest) = .ok rest := by
  unfold skipEscaped
  split
  · next heq => cases heq
  · next heq =>
      obtain ⟨rfl, _⟩ := List.cons.inj heq
      cases h
  · next heq =>
      obtain ⟨rfl, rfl⟩ := List.cons.inj heq
      rw [h, Option.isSome_some, if_pos rfl]

theorem skipEscaped_code {ds rest : List Char} {n : Nat} (h : IsCode ds n) :
    skipEscaped ('u' :: (ds ++ rest)) = .ok rest := by
  simp [skipEscaped, fourDigits_append h, Except.map]

theorem readOnto_plain {done rest : List Char} {c : Char} (hquote : c ≠ '"') (hslash : c ≠ '\\')
    (hcontrol : 32 ≤ c.toNat) : readOnto done (c :: rest) = readOnto (c :: done) rest := by
  rw [readOnto]
  · rw [if_neg (by omega)]
  · exact hquote
  · exact hslash

theorem readOnto_escaped {done cs rest : List Char} {c : Char} (h : escaped cs = .ok (c, rest)) :
    readOnto done ('\\' :: cs) = readOnto (c :: done) rest := by
  rw [readOnto]
  split
  · next heq => rw [h] at heq; cases heq
  · next heq =>
      rw [h] at heq
      cases heq
      rfl

theorem readOnto_spells {done q t rest : List Char} (h : Spells q t) :
    readOnto done (q ++ '"' :: rest) = .ok (done.reverse ++ t, rest) := by
  induction h generalizing done with
  | nil => simp [readOnto]
  | plain hquote hslash hcontrol _ ih =>
      rw [List.cons_append, readOnto_plain hquote hslash hcontrol, ih, List.reverse_cons,
        List.append_assoc, List.singleton_append]
  | short he _ ih =>
      rw [List.cons_append, List.cons_append, readOnto_escaped (escaped_short he), ih,
        List.reverse_cons, List.append_assoc, List.singleton_append]
  | code hds hfirst hsecond _ ih =>
      rw [List.cons_append, List.cons_append, List.append_assoc,
        readOnto_escaped (escaped_code hds hfirst hsecond), ih, List.reverse_cons,
        List.append_assoc, List.singleton_append]
  | halves hds hes hfirst hsecond _ ih =>
      simp only [List.cons_append, List.append_assoc]
      rw [readOnto_escaped (escaped_halves hds hes hfirst hsecond), ih, List.reverse_cons,
        List.append_assoc, List.singleton_append]

/-- A string is read as the text it spells. -/
theorem read_spells {q t : List Char} (h : Spells q t) (rest : List Char) :
    read (q ++ '"' :: rest) = .ok (t, rest) :=
  readOnto_spells h

theorem skip_plain {rest : List Char} {c : Char} (hquote : c ≠ '"') (hslash : c ≠ '\\')
    (hcontrol : 32 ≤ c.toNat) : skip (c :: rest) = skip rest := by
  rw [skip]
  · rw [if_neg (by omega)]
  · exact hquote
  · exact hslash

theorem skip_escaped {cs rest : List Char} (h : skipEscaped cs = .ok rest) :
    skip ('\\' :: cs) = skip rest := by
  rw [skip]
  split
  · next heq => rw [h] at heq; cases heq
  · next heq =>
      rw [h] at heq
      cases heq
      rfl

theorem skip_append {q rest : List Char} (h : IsBody q) : skip (q ++ '"' :: rest) = .ok rest := by
  induction h with
  | nil => simp [skip]
  | plain hquote hslash hcontrol _ ih =>
      rw [List.cons_append, skip_plain hquote hslash hcontrol, ih]
  | short he _ ih =>
      rw [List.cons_append, List.cons_append, skip_escaped (skipEscaped_short he), ih]
  | code hds _ ih =>
      rw [List.cons_append, List.cons_append, List.append_assoc,
        skip_escaped (skipEscaped_code hds), ih]

theorem hexValue?_digitChar : ∀ x < 16, hexValue? (Nat.digitChar x) = some x := by
  decide

theorem toList_fixed :
    ∀ n < 32, (Hex.fixed 4 n).toList = ['0', '0', Nat.digitChar (n / 16), Nat.digitChar (n % 16)] := by
  decide

theorem isCode_fixed {n : Nat} (h : n < 32) : IsCode (Hex.fixed 4 n).toList n := by
  have hcode := IsCode.of (hexValue?_digitChar 0 (by omega)) (hexValue?_digitChar 0 (by omega))
    (hexValue?_digitChar (n / 16) (by omega)) (hexValue?_digitChar (n % 16) (by omega))
  rw [toList_fixed n h]
  rwa [show ((0 * 16 + 0) * 16 + n / 16) * 16 + n % 16 = n by omega] at hcode

theorem Spells.escape {c : Char} {q t : List Char} (h : Spells q t) :
    Spells (escape c ++ q) (c :: t) := by
  unfold Quoted.escape
  split_ifs with hquote hslash hline hreturn htab hback hfeed hcontrol
  · subst hquote
    exact .short rfl h
  · subst hslash
    exact .short rfl h
  · subst hline
    exact .short rfl h
  · subst hreturn
    exact .short rfl h
  · subst htab
    exact .short rfl h
  · rw [← c.ofNat_toNat, hback]
    exact .short rfl h
  · rw [← c.ofNat_toNat, hfeed]
    exact .short rfl h
  · have hspells := Spells.code (isCode_fixed hcontrol)
      (by simp [isFirstHalf]; omega) (by simp [isSecondHalf]; omega) h
    rwa [c.ofNat_toNat] at hspells
  · exact .plain hquote hslash (by omega) h

theorem spells_escape (text : List Char) : Spells (text.flatMap escape) text := by
  induction text with
  | nil => exact .nil
  | cons c text ih => exact ih.escape

/-- Any text is read back from the string it is written as. -/
theorem read_write (text rest : List Char) :
    ∃ cs, write text ++ rest = '"' :: cs ∧ read cs = .ok (text, rest) := by
  refine ⟨text.flatMap escape ++ '"' :: rest, by simp [write], ?_⟩
  exact read_spells (spells_escape text) _

end Json.Quoted

end Netfilter
